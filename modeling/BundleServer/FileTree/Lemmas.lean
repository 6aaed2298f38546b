import BundleServer.FileTree.Basic

/-!
# Facts about lookup

Taking steps one list after the other is taking them all at once (`descend_append`), and what lookup reaches in a
well-formed tree is well-formed (`wellFormed_of_resolve`). Joining the name of an entry to a path that leads to its
directory leads to the entry, or nowhere (`node_of_resolve_join`). Whoever reads a path waits at a fifo, and nowhere
else (`read_eq_waits_iff`).
-/

namespace BundleServer.FileTree

/-- Are the spot's node and all directories above it well-formed? -/
def Spot.WellFormed (spot : Spot) : Prop :=
  spot.node.WellFormed ∧ ∀ entry ∈ spot.above, entry.2.WellFormed

namespace Spot

variable {spot : Spot}

theorem WellFormed.up (h : spot.WellFormed) : spot.up.WellFormed := by
  unfold Spot.up
  split
  · exact h
  · rename_i above
    have member := h.2
    simp only [above, List.mem_cons, forall_eq_or_imp] at member
    exact member

theorem WellFormed.outermost (h : spot.WellFormed) : spot.outermost.WellFormed := by
  unfold Spot.outermost
  split
  · exact h
  · rename_i last
    exact ⟨h.2 _ (List.mem_of_getLast? last), by simp⟩

theorem eq_of_enter {target : Spot} (h : spot.enter = .ok target) : target = spot ∧ spot.node.kind = .directory := by
  unfold Spot.enter at h
  split at h
  · simp_all
  · simp at h

theorem eq_of_search {caller : Caller} {entries : Entries} (h : spot.search caller = .ok entries) :
    ∃ access, spot.node = .directory access entries := by
  unfold Spot.search at h
  split at h
  · split at h
    · simp_all
    · simp at h
  · simp at h

theorem eq_of_child {caller : Caller} {name : Bytes} {target : Spot} (h : spot.child caller name = .ok target) :
    ∃ access entries node, spot.node = .directory access entries ∧
      Entries.find? name entries = some node ∧
      target = ⟨node, (name, spot.node) :: spot.above⟩ := by
  unfold Spot.child at h
  simp only [bind, Except.bind] at h
  split at h
  · simp at h
  · rename_i entries searched
    obtain ⟨access, directory⟩ := eq_of_search searched
    split at h
    · simp at h
    · split at h
      · rename_i node found
        exact ⟨access, entries, node, directory, found, by simpa using h.symm⟩
      · simp at h

theorem WellFormed.child (h : spot.WellFormed) {caller : Caller} {name : Bytes} {target : Spot}
    (found : spot.child caller name = .ok target) : target.WellFormed := by
  obtain ⟨access, entries, node, directory, member, rfl⟩ := eq_of_child found
  have inner := h.1
  rw [directory, Node.wellFormed_directory] at inner
  refine ⟨(inner.2 _ (Entries.mem_of_find? member)).2, fun entry listed => ?_⟩
  rcases List.mem_cons.1 listed with rfl | listed
  · exact h.1
  · exact h.2 entry listed

end Spot

/-- No step loses the property of a spot. -/
structure Spot.Kept (caller : Caller) (property : Spot → Prop) : Prop where
  outermost : ∀ {spot}, property spot → property spot.outermost
  up : ∀ {spot}, property spot → property spot.up
  child : ∀ {spot name target}, property spot → spot.child caller name = .ok target → property target

section Kept

variable {caller : Caller} {property : Spot → Prop} {links : Nat} {spot : Spot} {steps : List Step}
  {result : Spot × Nat}

theorem Spot.Kept.of_advance (kept : Spot.Kept caller property)
    {follow : Spot → List Step → Except Fault (Spot × Nat)}
    (keeps : ∀ spot steps result, property spot → follow spot steps = .ok result → property result.1)
    (h : property spot) (reached : advance caller links follow spot steps = .ok result) : property result.1 := by
  induction steps generalizing spot with
  | nil =>
    simp only [advance, Except.ok.injEq] at reached
    exact reached ▸ h
  | cons step rest ih =>
    cases step with
    | outermost => exact ih (kept.outermost h) reached
    | enter =>
      simp only [advance, bind, Except.bind] at reached
      split at reached
      · simp at reached
      · rename_i entered
        exact ih ((Spot.eq_of_enter entered).1 ▸ h) reached
    | here =>
      simp only [advance, bind, Except.bind] at reached
      split at reached
      · simp at reached
      · exact ih h reached
    | up =>
      simp only [advance, bind, Except.bind] at reached
      split at reached
      · simp at reached
      · exact ih (kept.up h) reached
    | name name =>
      simp only [advance, bind, Except.bind] at reached
      split at reached
      · simp at reached
      · rename_i child found
        split at reached
        · split at reached
          · simp at reached
          · exact keeps _ _ _ h reached
        · exact ih (kept.child h found) reached

/-- What no step loses holds wherever steps lead. -/
theorem Spot.Kept.of_descend (kept : Spot.Kept caller property) (h : property spot)
    (reached : descend caller links spot steps = .ok result) : property result.1 := by
  induction links generalizing spot steps result with
  | zero => exact kept.of_advance (by simp) h reached
  | succ links ih => exact kept.of_advance (fun _ _ _ h reached => ih h reached) h reached

theorem Spot.kept_wellFormed (caller : Caller) : Spot.Kept caller Spot.WellFormed where
  outermost h := h.outermost
  up h := h.up
  child h found := h.child found

end Kept

theorem wellFormed_of_descend {caller : Caller} {links : Nat} {spot : Spot} (h : spot.WellFormed) {steps : List Step}
    {result : Spot × Nat} (reached : descend caller links spot steps = .ok result) : result.1.WellFormed :=
  (Spot.kept_wellFormed caller).of_descend h reached

theorem wellFormed_start (tree : FileTree) : tree.start.WellFormed := by
  refine ⟨tree.wellFormed, fun entry member => ?_⟩
  simp only [start, List.mem_singleton] at member
  simp [member, surroundings, Node.WellFormed, Node.WellFormedEntries]

theorem wellFormed_of_walkFromTop {tree : FileTree} {caller : Caller} {steps : List Step} {spot : Spot}
    (reached : tree.walkFromTop caller steps = .ok spot) : spot.WellFormed := by
  unfold walkFromTop at reached
  cases result : descend caller linkLimit tree.start steps with
  | error => simp [result, Except.map] at reached
  | ok arrival =>
    simp only [result, Except.map, Except.ok.injEq] at reached
    exact reached ▸ wellFormed_of_descend (wellFormed_start tree) result

theorem wellFormed_of_resolve {tree : FileTree} {caller : Caller} {path : Path} {spot : Spot}
    (reached : tree.resolve caller path = .ok spot) : spot.WellFormed := by
  unfold resolve at reached
  simp only [bind, Except.bind] at reached
  split at reached
  · simp at reached
  · exact wellFormed_of_walkFromTop reached

theorem advance_append {caller : Caller} {links : Nat} {follow : Spot → List Step → Except Fault (Spot × Nat)}
    {more : List Step}
    (split : ∀ spot steps, follow spot (steps ++ more) =
      (follow spot steps).bind fun arrival => descend caller arrival.2 arrival.1 more)
    (last : ∀ spot, descend caller links spot more = advance caller links follow spot more)
    (spot : Spot) (steps : List Step) :
    advance caller links follow spot (steps ++ more) =
      (advance caller links follow spot steps).bind fun arrival => descend caller arrival.2 arrival.1 more := by
  induction steps generalizing spot with
  | nil => simp [advance, Except.bind, last]
  | cons step rest ih =>
    cases step with
    | outermost => simpa [advance] using ih spot.outermost
    | enter =>
      simp only [List.cons_append, advance, bind, Except.bind]
      cases spot.enter with
      | error => rfl
      | ok entered => exact ih entered
    | here =>
      simp only [List.cons_append, advance, bind, Except.bind]
      cases spot.search caller with
      | error => rfl
      | ok => exact ih spot
    | up =>
      simp only [List.cons_append, advance, bind, Except.bind]
      cases spot.search caller with
      | error => rfl
      | ok => exact ih spot.up
    | name name =>
      simp only [List.cons_append, advance, bind, Except.bind]
      cases spot.child caller name with
      | error => rfl
      | ok child =>
        cases node : child.node with
        | link target =>
          simp only [node]
          by_cases empty : target.bytes = []
          · simp [empty]
          · simp only [empty, if_false, ← List.append_assoc, split]
            rfl
        | _ => simpa only [node, Except.bind] using ih child

/-- Steps taken one list after the other are steps taken at once, with the links that the first ones left. -/
theorem descend_append (caller : Caller) (links : Nat) (spot : Spot) (steps more : List Step) :
    descend caller links spot (steps ++ more) =
      (descend caller links spot steps).bind fun arrival => descend caller arrival.2 arrival.1 more := by
  induction links generalizing spot steps with
  | zero => exact advance_append (fun _ _ => rfl) (fun _ => rfl) spot steps
  | succ links ih => exact advance_append (fun spot steps => ih spot steps) (fun _ => rfl) spot steps

theorem isName_iff {name : Bytes} : isName name = true ↔
    name ≠ [] ∧ name ≠ [Path.dot] ∧ name ≠ [Path.dot, Path.dot] ∧ Path.separator ∉ name ∧ 0 ∉ name ∧
      name.length ≤ nameLimit := by
  simp [isName, and_assoc]

theorem ofPiece_of_isName {name : Bytes} (named : isName name = true) : Step.ofPiece name = [.name name] := by
  obtain ⟨filled, current, parent, -⟩ := isName_iff.1 named
  simp [Step.ofPiece, filled, current, parent]

/-- The steps of a path to which one more piece is joined. -/
theorem steps_join_piece {path : Path} (filled : path.bytes ≠ []) {piece : Bytes} (plain : Path.separator ∉ piece) :
    steps (path.join piece) =
      steps path ++ ((if path.bytes.getLast? = some Path.separator then [] else [.enter]) ++ Step.ofPiece piece) := by
  obtain ⟨absolute, first, others, joined, pieces⟩ := Path.split_join filled plain
  have nothing : Step.ofPiece [] = [] := rfl
  simp only [List.cons_append] at joined pieces
  simp only [steps, absolute, joined, pieces]
  by_cases last : path.bytes.getLast? = some Path.separator <;> simp [last, nothing]

/-- The steps to an entry of the directory that a path leads to. -/
theorem steps_join {path : Path} (filled : path.bytes ≠ []) {name : Bytes} (named : isName name = true) :
    steps (path.join name) =
      steps path ++ ((if path.bytes.getLast? = some Path.separator then [] else [.enter]) ++ [.name name]) := by
  obtain ⟨-, -, -, plain, -⟩ := isName_iff.1 named
  rw [steps_join_piece filled plain, ofPiece_of_isName named]

theorem checkedSteps_eq_ok_iff {path : Path} {found : List Step} :
    checkedSteps path = .ok found ↔ 0 ∉ path.bytes ∧ path.bytes ≠ [] ∧ found = steps path := by
  unfold checkedSteps
  split
  · rename_i nul
    simp [List.contains_iff_mem.1 nul]
  · rename_i nul
    have clean : 0 ∉ path.bytes := fun h => nul (List.contains_iff_mem.2 h)
    split
    · simp_all
    · simp_all [eq_comm]

/-- What it means that a path leads to a spot. -/
theorem resolve_eq_ok_iff {tree : FileTree} {caller : Caller} {path : Path} {spot : Spot} :
    tree.resolve caller path = .ok spot ↔ 0 ∉ path.bytes ∧ path.bytes ≠ [] ∧
      ∃ links, descend caller linkLimit tree.start (steps path) = .ok (spot, links) := by
  constructor
  · intro reached
    unfold resolve at reached
    simp only [bind, Except.bind] at reached
    split at reached
    · simp at reached
    · rename_i checked
      obtain ⟨clean, filled, rfl⟩ := checkedSteps_eq_ok_iff.1 checked
      unfold walkFromTop at reached
      cases result : descend caller linkLimit tree.start (steps path) with
      | error => simp [result, Except.map] at reached
      | ok arrival =>
        simp only [result, Except.map, Except.ok.injEq] at reached
        exact ⟨clean, filled, arrival.2, by rw [← reached]⟩
  · rintro ⟨clean, filled, links, result⟩
    simp [resolve, checkedSteps_eq_ok_iff.2 ⟨clean, filled, rfl⟩, bind, Except.bind, walkFromTop, result, Except.map]

/-- Whatever links may still be followed, steps are taken by `advance`. -/
theorem exists_descend_eq_advance (caller : Caller) (links : Nat) :
    ∃ follow, descend caller links = advance caller links follow := by
  cases links with
  | zero => exact ⟨_, rfl⟩
  | succ links => exact ⟨_, rfl⟩

/-- From a directory the name of an entry other than a link leads to that entry, if it leads anywhere. -/
theorem node_of_descend_name {caller : Caller} {links : Nat} {spot : Spot} {access : Access} {entries : Entries}
    (directory : spot.node = .directory access entries) {name : Bytes} {node : Node}
    (held : Entries.find? name entries = some node) (plain : node.kind ≠ .link) {result : Spot × Nat}
    (reached : descend caller links spot [.name name] = .ok result) : result.1.node = node := by
  obtain ⟨follow, same⟩ := exists_descend_eq_advance caller links
  rw [same] at reached
  simp only [advance, bind, Except.bind] at reached
  split at reached
  · simp at reached
  · rename_i child found
    obtain ⟨access', entries', node', directory', held', rfl⟩ := Spot.eq_of_child found
    obtain ⟨rfl, rfl⟩ := Node.directory.inj (directory.symm.trans directory')
    obtain rfl := Option.some.inj (held.symm.trans held')
    split at reached
    · rename_i link
      simp only at link
      exact absurd (by rw [link]; rfl) plain
    · simp only [Except.ok.injEq] at reached
      rw [← reached]

/-- A path that leads to a directory, joined with the name of an entry other than a link, leads to that entry if it
leads anywhere. -/
theorem node_of_resolve_join {tree : FileTree} {caller : Caller} {path : Path} {spot : Spot}
    (reached : tree.resolve caller path = .ok spot) {access : Access} {entries : Entries}
    (directory : spot.node = .directory access entries) {entry : Bytes × Node} (member : entry ∈ entries)
    (plain : entry.2.kind ≠ .link) {found : Spot} (joined : tree.resolve caller (path.join entry.1) = .ok found) :
    found.node = entry.2 := by
  have formed := (wellFormed_of_resolve reached).1
  rw [directory, Node.wellFormed_directory] at formed
  have named := (formed.2 entry member).1
  have held : Entries.find? entry.1 entries = some entry.2 := Entries.find?_of_mem formed.1 member
  obtain ⟨-, filled, links, toDirectory⟩ := resolve_eq_ok_iff.1 reached
  obtain ⟨-, -, links', toEntry⟩ := resolve_eq_ok_iff.1 joined
  rw [steps_join filled named, descend_append, toDirectory] at toEntry
  simp only [Except.bind] at toEntry
  split at toEntry
  · exact node_of_descend_name directory held plain toEntry
  · rw [descend_append] at toEntry
    obtain ⟨follow, same⟩ := exists_descend_eq_advance caller links
    have entered : descend caller links spot [.enter] = .ok (spot, links) := by
      rw [same]
      simp [advance, Spot.enter, directory, Node.kind, bind, Except.bind]
    rw [entered] at toEntry
    exact node_of_descend_name directory held plain toEntry

section Reading

theorem Node.reading_eq_waits_iff {node : Node} :
    node.reading = .waits ↔ ∃ access, node = .fifo access ∧ access.read = true := by
  unfold Node.reading
  split
  · split <;> simp
  · simp
  · split <;> simp_all
  · simp

variable {tree : FileTree} {path : Path}

/-- Does the path lead to a fifo that a visitor may read? -/
def HoldsFifo (tree : FileTree) (path : Path) : Prop :=
  ∃ spot access, tree.resolve .visitor path = .ok spot ∧ spot.node = .fifo access ∧ access.read = true

theorem read_eq_waits_iff : tree.read path = .waits ↔ tree.HoldsFifo path := by
  unfold HoldsFifo read
  cases tree.resolve .visitor path with
  | error fault => simp
  | ok spot => simp [Node.reading_eq_waits_iff]

theorem HoldsFifo.kind_eq (holds : tree.HoldsFifo path) : tree.kind path = .ok .fifo := by
  obtain ⟨spot, access, reached, node, -⟩ := holds
  rw [kind, reached, Except.map, node]
  rfl

end Reading

end BundleServer.FileTree
