import BundleServer.Proofs.FileTree.Descent
import BundleServer.Walk.Basic

/-!
# What comes of visits

A visit gives nothing, what is read of its file, an error for its path, or the entries of the directory at its path
(`visit_cases`). It waits in one case only: what was listed as a regular file has become a fifo since
(`visit_eq_waits_iff`). The entries that a directory lists are of the kinds that they have at that moment, so none of
them waits while the tree stays as it is, and a call leaves behind a visit that waits if and only if it has found one
(`noneWaits_iff_of_nextOf`).
-/

namespace BundleServer

namespace Visit

/-- The path of a visit. -/
def path : Visit → Path
  | .root path => path
  | .entry path _ _ => path

/-- The name under which a visit gives a fragment. -/
def name : Visit → Bytes
  | .root path => path.fileName?.getD path.bytes
  | .entry _ name _ => name

/-- Does a fifo stand in the place of what was listed as a regular file, and would the walk read it? -/
def Waits (tree : FileTree) (suffix : Bytes) (v : Visit) : Prop :=
  ∃ path name, v = .entry path name .file ∧ Walk.selects suffix path = true ∧ tree.HoldsFifo path

end Visit

namespace Walk

variable {tree : FileTree} {suffix : Bytes} {order : SiblingOrder}

theorem visitLink_cases (path : Path) (name : Bytes) :
    visitLink tree suffix path name = .nothing ∨
      (selects suffix path = true ∧ visitLink tree suffix path name = readFile tree path name) ∨
      ∃ fault, visitLink tree suffix path name = .item (.error (.read path fault)) := by
  unfold visitLink
  split
  · rename_i selected
    split
    · exact .inr (.inl ⟨selected, rfl⟩)
    · exact .inl rfl
    · exact .inr (.inr ⟨_, rfl⟩)
  · exact .inl rfl

/-- All that can come of a visit: nothing, what is read at its path, an error for its path, or the entries of the
directory at its path. -/
theorem visit_cases (tree : FileTree) (suffix : Bytes) (order : SiblingOrder) (v : Visit) :
    visit tree suffix order v = .nothing ∨
      (selects suffix v.path = true ∧ visit tree suffix order v = readFile tree v.path v.name) ∨
      (∃ fault, visit tree suffix order v = .item (.error (.read v.path fault))) ∨
      (visit tree suffix order v = visitDirectory tree order v.path) := by
  have entry (path : Path) (name : Bytes) (kind : FileTree.Kind) :
      visitEntry tree suffix order path name kind = .nothing ∨
        (selects suffix path = true ∧ visitEntry tree suffix order path name kind = readFile tree path name) ∨
        (∃ fault, visitEntry tree suffix order path name kind = .item (.error (.read path fault))) ∨
        visitEntry tree suffix order path name kind = visitDirectory tree order path := by
    cases kind with
    | directory => exact .inr (.inr (.inr rfl))
    | fifo => exact .inl rfl
    | link => exact (visitLink_cases path name).imp_right fun other => other.imp_right .inl
    | file =>
      by_cases selected : selects suffix path = true
      · exact .inr (.inl ⟨selected, by simp [visitEntry, selected]⟩)
      · exact .inl (by simp [visitEntry, selected])
  cases v with
  | entry path name kind => exact entry path name kind
  | root path =>
    simp only [visit, Visit.path, Visit.name]
    split
    · exact .inr (.inr (.inl ⟨_, rfl⟩))
    · split
      · exact .inr (.inr (.inl ⟨_, rfl⟩))
      · exact .inr (.inr (.inr rfl))
      · exact (visitLink_cases path _).imp_right fun other => other.imp_right .inl
    · exact entry path _ _

/-- What a visit lists are the entries of the directory at its path. -/
theorem visitDirectory_of_visit_inside {v : Visit} {visits : List Visit}
    (outcome : visit tree suffix order v = .inside visits) : visitDirectory tree order v.path = .inside visits := by
  rcases visit_cases tree suffix order v with same | ⟨-, same⟩ | ⟨fault, same⟩ | same
  · rw [same] at outcome
    cases outcome
  · exact absurd (same.symm.trans outcome) readFile_ne_inside
  · rw [same] at outcome
    cases outcome
  · exact same.symm.trans outcome

theorem readFile_eq_waits_iff {path : Path} {name : Bytes} :
    readFile tree path name = .waits ↔ tree.HoldsFifo path := by
  rw [← FileTree.read_eq_waits_iff, readFile]
  split <;> simp_all

theorem readFile_ne_waits_of_file {path : Path} {name : Bytes} (file : tree.kind path = .ok .file) :
    readFile tree path name ≠ .waits := by
  intro waits
  rw [(readFile_eq_waits_iff.1 waits).kind_eq] at file
  cases file

theorem visitDirectory_ne_waits (path : Path) : visitDirectory tree order path ≠ .waits := by
  unfold visitDirectory
  split <;> simp [notOpened]

/-- What a link leads to is looked at just before it is read. -/
theorem visitLink_ne_waits (path : Path) (name : Bytes) : visitLink tree suffix path name ≠ .waits := by
  unfold visitLink
  split
  · split
    · rename_i file
      exact readFile_ne_waits_of_file file
    · simp
    · simp
  · simp

theorem visitEntry_eq_waits_iff {path : Path} {name : Bytes} {kind : FileTree.Kind} :
    visitEntry tree suffix order path name kind = .waits ↔
      kind = .file ∧ selects suffix path = true ∧ tree.HoldsFifo path := by
  cases kind with
  | directory => simp [visitEntry, visitDirectory_ne_waits]
  | link => simp [visitEntry, visitLink_ne_waits]
  | fifo => simp [visitEntry]
  | file =>
    by_cases selected : selects suffix path = true <;>
      simp [visitEntry, selected, readFile_eq_waits_iff]

/-- A root is looked at just before it is visited. -/
theorem visit_root_ne_waits (path : Path) : visit tree suffix order (.root path) ≠ .waits := by
  simp only [visit]
  split
  · simp [notOpened]
  · split
    · simp [notOpened]
    · exact visitDirectory_ne_waits path
    · exact visitLink_ne_waits path _
  · rename_i kind _ named
    intro waits
    obtain ⟨rfl, -, spot, access, reached, node, -⟩ := visitEntry_eq_waits_iff.1 waits
    obtain ⟨last, found, link | rfl⟩ := FileTree.resolveLast_of_resolve reached
    · simp [FileTree.kindOfLast, found, Except.map, link] at named
    · simp [FileTree.kindOfLast, found, Except.map, node, FileTree.Node.kind] at named

theorem visit_eq_waits_iff {v : Visit} : visit tree suffix order v = .waits ↔ v.Waits tree suffix := by
  cases v with
  | root path => simp [visit_root_ne_waits, Visit.Waits]
  | entry path name kind =>
    rw [visit, visitEntry_eq_waits_iff]
    constructor
    · rintro ⟨rfl, selected, holds⟩
      exact ⟨path, name, rfl, selected, holds⟩
    · rintro ⟨_, _, same, selected, holds⟩
      cases same
      exact ⟨rfl, selected, holds⟩

/-- Does none of the visits wait on the tree? -/
def NoneWaits (tree : FileTree) (suffix : Bytes) (visits : List Visit) : Prop := ∀ v ∈ visits, ¬v.Waits tree suffix

theorem noneWaits_cons_iff {v : Visit} {rest : List Visit} :
    NoneWaits tree suffix (v :: rest) ↔ ¬v.Waits tree suffix ∧ NoneWaits tree suffix rest :=
  List.forall_mem_cons

theorem noneWaits_append_iff {first second : List Visit} :
    NoneWaits tree suffix (first ++ second) ↔ NoneWaits tree suffix first ∧ NoneWaits tree suffix second :=
  List.forall_mem_append

theorem noneWaits_root (root : Path) : NoneWaits tree suffix [.root root] := by
  refine List.forall_mem_singleton.2 ?_
  rintro ⟨_, _, same, -⟩
  cases same

/-- What a directory lists is of the kind that is listed, as long as the tree stays as it is. -/
theorem noneWaits_of_visit_inside {v : Visit} {visits : List Visit}
    (outcome : visit tree suffix order v = .inside visits) : NoneWaits tree suffix visits := by
  obtain ⟨spot, access, entries, reached, directory, rfl⟩ :=
    eq_of_visitDirectory_inside (visitDirectory_of_visit_inside outcome)
  intro entry member
  obtain ⟨listed, arranged, rfl⟩ := List.mem_map.1 member
  obtain ⟨⟨name, node⟩, held, rfl⟩ := List.mem_map.1 ((order.arrange_perm _ _).mem_iff.1 arranged)
  rintro ⟨_, _, same, -, found, fifo, arrived, isFifo, -⟩
  obtain ⟨rfl, rfl, kind⟩ := Visit.entry.inj same
  have file : node.kind = .file := kind
  have here : found.node = node :=
    FileTree.node_of_resolve_join reached directory held (by simp [file]) arrived
  rw [← here, isFifo] at file
  cases file

section Calls

variable {v : Visit} {pending rest visits : List Visit} {answer : Answer}

theorem nextOf_of_item {item : Item} (outcome : visit tree suffix order v = .item item) :
    nextOf tree suffix order (v :: rest) = (.item item, rest) := by
  rw [nextOf]
  split <;> simp_all

theorem nextOf_of_nothing (outcome : visit tree suffix order v = .nothing) :
    nextOf tree suffix order (v :: rest) = nextOf tree suffix order rest := by
  rw [nextOf]
  split <;> simp_all

theorem nextOf_of_inside (outcome : visit tree suffix order v = .inside visits) :
    nextOf tree suffix order (v :: rest) = nextOf tree suffix order (visits ++ rest) := by
  rw [nextOf]
  split <;> simp_all

theorem nextOf_of_waits (waits : v.Waits tree suffix) :
    nextOf tree suffix order (v :: rest) = (.waits, v :: rest) := by
  have outcome : visit tree suffix order v = .waits := visit_eq_waits_iff.2 waits
  rw [nextOf]
  split <;> simp_all

/-- A walk that has no further item has nothing left to visit. -/
theorem pending_of_nextOf_ended (ended : nextOf tree suffix order pending = (.ended, rest)) : rest = [] := by
  fun_induction nextOf tree suffix order pending generalizing rest with
  | case1 => simpa using ended
  | case2 v pending item outcome => simp at ended
  | case3 v pending outcome ih => exact ih ended
  | case4 v pending visits outcome ih => exact ih ended
  | case5 v pending outcome => simp at ended

/-- On a tree that does not change a call neither does away with visits that wait nor adds any. -/
theorem noneWaits_iff_of_nextOf (found : nextOf tree suffix order pending = (answer, rest)) :
    NoneWaits tree suffix rest ↔ NoneWaits tree suffix pending := by
  have returns {v : Visit} {outcome : Visited} (made : visit tree suffix order v = outcome)
      (other : outcome ≠ .waits) : ¬v.Waits tree suffix :=
    fun waits => other (made.symm.trans (visit_eq_waits_iff.2 waits))
  fun_induction nextOf tree suffix order pending with
  | case1 =>
    obtain ⟨-, rfl⟩ := Prod.mk.inj found
    rfl
  | case2 v pending item outcome =>
    obtain ⟨-, rfl⟩ := Prod.mk.inj found
    simp [noneWaits_cons_iff, returns outcome]
  | case3 v pending outcome ih =>
    simp [noneWaits_cons_iff, returns outcome, ih found]
  | case4 v pending visits outcome ih =>
    simp [noneWaits_cons_iff, returns outcome, ih found, noneWaits_append_iff, noneWaits_of_visit_inside outcome]
  | case5 v pending outcome =>
    obtain ⟨-, rfl⟩ := Prod.mk.inj found
    rfl

theorem noneWaits_of_nextOf_ended (ended : nextOf tree suffix order pending = (.ended, rest)) :
    NoneWaits tree suffix pending := by
  have same := noneWaits_iff_of_nextOf ended
  rw [pending_of_nextOf_ended ended] at same
  exact same.1 (List.forall_mem_nil _)

/-- A call that waits makes a visit that waits, and this visit remains to be made. -/
theorem not_noneWaits_of_nextOf_waits (found : nextOf tree suffix order pending = (.waits, rest)) :
    ¬NoneWaits tree suffix rest := by
  fun_induction nextOf tree suffix order pending with
  | case1 => simp at found
  | case2 v pending item outcome => simp at found
  | case3 v pending outcome ih => exact ih found
  | case4 v pending visits outcome ih => exact ih found
  | case5 v pending outcome =>
    obtain ⟨-, rfl⟩ := Prod.mk.inj found
    exact fun none => (noneWaits_cons_iff.1 none).1 (visit_eq_waits_iff.1 outcome)

end Calls

end Walk

end BundleServer
