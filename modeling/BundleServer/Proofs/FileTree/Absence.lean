import BundleServer.Proofs.Path
import BundleServer.Proofs.Walk.Files

/-!
# Where a path leads nowhere

In a tree without links the steps of a path lead to an entry, or one of them leads nowhere: a name is missing in the
directory that was reached, or what was reached is no directory (`exists_lacks_iff`). The two are different faults. They
are the owner's faults, and those of a visitor who is not refused on the way, which happens nowhere below a directory
that is open all the way down (`Admits.foldl_join`).
-/

namespace BundleServer.FileTree

/-- Why a path leads nowhere. -/
inductive Absence where
  /-- A directory has no entry of the name. -/
  | missing
  /-- What should be a directory is none. -/
  | blocked
  deriving DecidableEq, Repr

/-- The fault that is found. -/
def Absence.fault : Absence → Fault
  | .missing => .notFound
  | .blocked => .notDirectory

/-- Does a step lead nowhere from the spot? -/
inductive Spot.Ends (spot : Spot) : Step → Absence → Prop where
  | missing {access : Access} {entries : Entries} {name : Bytes} (directory : spot.node = .directory access entries)
    (without : Entries.find? name entries = none) : Ends spot (.name name) .missing
  | blocked {step : Step} (within : step ≠ .outermost) (other : spot.node.kind ≠ .directory) : Ends spot step .blocked

/-- Does a path lead nowhere, for the reason? Its steps lead to a spot from which the next one leads nowhere. -/
def Lacks (tree : FileTree) (path : Path) (why : Absence) : Prop :=
  ∃ front step rest spot, checkedSteps path = .ok (front ++ step :: rest) ∧
    tree.walkFromTop .owner front = .ok spot ∧ spot.Ends step why

section Steps

variable {tree : FileTree} {links : Nat} {spot : Spot} {step : Step} {rest steps : List Step} {why : Absence}

theorem descend_outermost {caller : Caller} :
    descend caller links spot (.outermost :: rest) = descend caller links spot.outermost rest := by
  obtain ⟨follow, same⟩ := exists_descend_eq_advance caller links
  simp only [same, advance]

theorem descend_up {caller : Caller} {entries : Entries} (searched : spot.search caller = .ok entries) :
    descend caller links spot (.up :: rest) = descend caller links spot.up rest := by
  obtain ⟨follow, same⟩ := exists_descend_eq_advance caller links
  simp [same, advance, searched, bind, Except.bind]

theorem descend_up_of_refused {caller : Caller} {fault : Fault} (refused : spot.search caller = .error fault) :
    descend caller links spot (.up :: rest) = .error fault := by
  obtain ⟨follow, same⟩ := exists_descend_eq_advance caller links
  simp [same, advance, refused, bind, Except.bind]

theorem search_of_ne {caller : Caller} (other : spot.node.kind ≠ .directory) :
    spot.search caller = .error .notDirectory := by
  obtain ⟨node, above⟩ := spot
  cases node with
  | directory access entries => exact absurd rfl other
  | _ => rfl

theorem child_of_ne {caller : Caller} (other : spot.node.kind ≠ .directory) (name : Bytes) :
    spot.child caller name = .error .notDirectory := by
  rw [Spot.child, search_of_ne other]
  rfl

/-- A step that leads nowhere ends the lookup with its fault. -/
theorem descend_of_ends (ends : spot.Ends step why) (short : ∀ name ∈ step.name?, name.length ≤ nameLimit) :
    descend .owner links spot (step :: rest) = .error why.fault := by
  cases ends with
  | @missing access entries name directory without =>
    exact descend_name_of_refused (child_of_missing (search_owner directory) (short name rfl) without)
  | blocked within other =>
    cases step with
    | outermost => exact absurd rfl within
    | enter => exact descend_enter_of_ne other
    | here => exact descend_here_of_refused (search_of_ne other)
    | up => exact descend_up_of_refused (search_of_ne other)
    | name name => exact descend_name_of_refused (child_of_ne other name)

theorem Node.kind_ne_link {node : Node} (free : node.linkFree = true) : node.kind ≠ .link := by
  cases node with
  | link target => cases free
  | _ => exact fun link => by cases link

/-- In a tree without links a step leads nowhere, or to a spot of the tree. -/
theorem ends_or_leads (free : tree.top.linkFree = true) (stands : spot.Stands tree) (step : Step)
    (short : ∀ name ∈ step.name?, name.length ≤ nameLimit) :
    (∃ why, spot.Ends step why) ∨ ∃ next : Spot, next.Stands tree ∧
      ∀ links rest, descend .owner links spot (step :: rest) = descend .owner links next rest := by
  by_cases outermost : step = .outermost
  · subst outermost
    exact .inr ⟨spot.outermost, (Spot.kept_stands tree .owner).outermost stands, fun _ _ => descend_outermost⟩
  by_cases directory : spot.node.kind = .directory
  · obtain ⟨node, above⟩ := spot
    cases node with
    | directory access entries =>
      have searched : Spot.search .owner ⟨.directory access entries, above⟩ = .ok entries := rfl
      cases step with
      | outermost => exact absurd rfl outermost
      | enter => exact .inr ⟨_, stands, fun _ _ => descend_enter rfl⟩
      | here => exact .inr ⟨_, stands, fun _ _ => descend_here searched⟩
      | up => exact .inr ⟨_, (Spot.kept_stands tree .owner).up stands, fun _ _ => descend_up searched⟩
      | name name =>
        cases held : Entries.find? name entries with
        | none => exact .inl ⟨.missing, .missing rfl held⟩
        | some child =>
          have found : Spot.child .owner ⟨.directory access entries, above⟩ name =
              .ok ⟨child, (name, .directory access entries) :: above⟩ := child_of_held searched (short name rfl) held
          have next := Spot.Stands.inside stands found
          exact .inr ⟨_, next, fun _ _ => descend_name found (Node.kind_ne_link (linkFree_of_stands free next))⟩
    | _ => cases directory
  · exact .inl ⟨.blocked, .blocked outermost directory⟩

/-- In a tree without links steps lead to a spot, or to one from which the next step leads nowhere. -/
theorem descend_cases_of_linkFree (free : tree.top.linkFree = true) (links : Nat) (stands : spot.Stands tree)
    (short : ∀ name ∈ namesOf steps, name.length ≤ nameLimit) :
    (∃ last, descend .owner links spot steps = .ok (last, links)) ∨ ∃ front step rest last why,
      steps = front ++ step :: rest ∧ descend .owner links spot front = .ok (last, links) ∧ last.Ends step why := by
  induction steps generalizing spot with
  | nil => exact .inl ⟨spot, descend_nil⟩
  | cons step rest ih =>
    have first : ∀ name ∈ step.name?, name.length ≤ nameLimit := fun name own =>
      short name (List.mem_filterMap.2 ⟨step, List.mem_cons_self, own⟩)
    have others : ∀ name ∈ namesOf rest, name.length ≤ nameLimit := fun name member => by
      obtain ⟨step, inside, own⟩ := List.mem_filterMap.1 member
      exact short name (List.mem_filterMap.2 ⟨step, List.mem_cons_of_mem _ inside, own⟩)
    rcases ends_or_leads free stands step first with ⟨why, ends⟩ | ⟨next, nextStands, leads⟩
    · exact .inr ⟨[], step, rest, spot, why, rfl, descend_nil, ends⟩
    · rcases ih nextStands others with ⟨last, arrived⟩ | ⟨front, stop, behind, last, why, whole, arrived, ends⟩
      · exact .inl ⟨last, (leads links rest).trans arrived⟩
      · exact .inr ⟨step :: front, stop, behind, last, why, by rw [whole]; rfl, (leads links front).trans arrived, ends⟩

end Steps

section Paths

variable {tree : FileTree} {path : Path} {why : Absence}

/-- Where a path leads nowhere, the owner is told why. -/
theorem resolve_of_lacks (short : ∀ name ∈ path.names, name.length ≤ nameLimit) (lacks : tree.Lacks path why) :
    tree.resolve .owner path = .error why.fault := by
  obtain ⟨front, step, rest, spot, checked, reached, ends⟩ := lacks
  have whole : steps path = front ++ step :: rest := (checkedSteps_eq_ok_iff.1 checked).2.2.symm
  have own : ∀ name ∈ step.name?, name.length ≤ nameLimit := by
    intro name named
    apply short
    rw [← namesOf_steps, whole]
    exact List.mem_filterMap.2 ⟨step, List.mem_append_right _ List.mem_cons_self, named⟩
  unfold walkFromTop at reached
  cases arrived : descend .owner linkLimit tree.start front with
  | error fault =>
    rw [arrived] at reached
    cases reached
  | ok arrival =>
    rw [arrived] at reached
    cases reached
    simp only [resolve, checked, bind, Except.bind, walkFromTop, descend_append, arrived, descend_of_ends ends own,
      Except.map]

/-- In a tree without links, a path leads nowhere for one of the reasons exactly if the owner finds nothing there. -/
theorem exists_lacks_iff (free : tree.top.linkFree = true) (clean : 0 ∉ path.bytes) (filled : path.bytes ≠ [])
    (short : ∀ name ∈ path.names, name.length ≤ nameLimit) :
    (∃ why, tree.Lacks path why) ↔ ∀ spot, tree.resolve .owner path ≠ .ok spot := by
  constructor
  · intro ⟨why, lacks⟩ spot reached
    rw [resolve_of_lacks short lacks] at reached
    cases reached
  · intro absent
    rcases descend_cases_of_linkFree free linkLimit .top (namesOf_steps path ▸ short) with
      ⟨last, arrived⟩ | ⟨front, step, rest, last, why, whole, arrived, ends⟩
    · exact absurd (resolve_eq_ok_iff.2 ⟨clean, filled, linkLimit, arrived⟩) (absent last)
    · refine ⟨why, front, step, rest, last, ?_, ?_, ends⟩
      · exact checkedSteps_eq_ok_iff.2 ⟨clean, filled, whole.symm⟩
      · rw [walkFromTop, arrived]
        rfl

end Paths

/-- Is a visitor refused neither on the path nor in any directory below it? -/
structure Admits (tree : FileTree) (path : Path) : Prop where
  reaches : tree.resolve .visitor path ≠ .error .permissionDenied
  opened : ∀ spot, tree.resolve .visitor path = .ok spot → spot.node.IsOpen

section Admitting

variable {tree : FileTree} {path : Path} {name : Bytes} {names : List Bytes}

/-- A fault on the path is met again when a name is joined to it. -/
theorem resolve_join_of_failed {caller : Caller} {fault : Fault} (filled : path.bytes ≠ [])
    (named : isName name = true) (failed : tree.resolve caller path = .error fault) :
    tree.resolve caller (path.join name) = .error fault := by
  by_cases clean : 0 ∈ path.bytes
  · have within : 0 ∈ (path.join name).bytes :=
      (Path.prefix_foldl_join path (List.forall_mem_singleton.2 (Path.isSegment_of_isName named))).subset clean
    simp only [resolve, checkedSteps, List.contains_iff_mem.2 clean, if_true, bind, Except.bind] at failed
    simp only [resolve, checkedSteps, List.contains_iff_mem.2 within, if_true, bind, Except.bind, failed]
  · simp only [resolve, checkedSteps_eq_ok_iff.2 ⟨clean, filled, rfl⟩, bind, Except.bind, walkFromTop] at failed
    simp only [resolve, checkedSteps_join clean filled named, bind, Except.bind, walkFromTop, descend_append]
    cases arrived : descend caller linkLimit tree.start (steps path) with
    | error other =>
      rw [arrived] at failed
      exact failed
    | ok arrival =>
      rw [arrived] at failed
      cases failed

/-- Below what is no directory there is nothing. -/
theorem resolve_join_of_ne {caller : Caller} {spot : Spot} (named : isName name = true)
    (reached : tree.resolve caller path = .ok spot) (other : spot.node.kind ≠ .directory) :
    tree.resolve caller (path.join name) = .error .notDirectory := by
  obtain ⟨clean, filled, links, arrived⟩ := resolve_eq_ok_iff.1 reached
  simp only [resolve, checkedSteps_join clean filled named, bind, Except.bind, walkFromTop]
  rw [descend_append, arrived, Except.bind]
  split
  · rw [List.nil_append, descend_name_of_refused (child_of_ne other name)]
    rfl
  · rw [List.singleton_append, descend_enter_of_ne other]
    rfl

/-- What is below an open directory is open. -/
theorem Node.IsOpen.of_entry {access : Access} {entries : Entries} (opened : (Node.directory access entries).IsOpen)
    {child : Node} (held : Entries.find? name entries = some child) : child.IsOpen := by
  intro names own inner further
  apply opened (name :: names) own inner
  rw [Node.at?, held, Option.bind_some, further]

/-- Below a path on which a visitor is refused nowhere, no name makes a difference. -/
theorem Admits.join (free : tree.top.linkFree = true) (filled : path.bytes ≠ []) (admits : tree.Admits path)
    (named : isName name = true) : tree.Admits (path.join name) := by
  have failing {fault : Fault} (failed : tree.resolve .visitor (path.join name) = .error fault)
      (other : fault ≠ .permissionDenied) : tree.Admits (path.join name) := by
    constructor
    · rw [failed]
      intro same
      cases same
      exact other rfl
    · intro spot reached
      rw [failed] at reached
      cases reached
  cases reached : tree.resolve .visitor path with
  | error fault =>
    refine failing (resolve_join_of_failed filled named reached) ?_
    rintro rfl
    exact admits.reaches reached
  | ok spot =>
    by_cases directory : spot.node.kind = .directory
    · obtain ⟨node, above⟩ := spot
      cases node with
      | directory access entries =>
        have opened := admits.opened _ reached
        have searchable : access.search = true := (opened [] access entries rfl).2
        cases held : Entries.find? name entries with
        | none =>
          obtain ⟨-, -, -, -, -, within⟩ := isName_iff.1 named
          have searched : Spot.search .visitor ⟨.directory access entries, above⟩ = .ok entries := by
            rw [search_visitor rfl, if_pos searchable]
          have missing := child_of_missing searched within held
          exact failing (resolve_join_of_refused reached rfl named missing) (by decide)
        | some child =>
          have found : Spot.child .visitor ⟨.directory access entries, above⟩ name =
              .ok ⟨child, (name, .directory access entries) :: above⟩ := child_of_searchable rfl searchable named held
          have inside := linkFree_of_stands free (.inside (stands_of_resolve reached) (Spot.child_owner found))
          have arrived := resolve_join_of_child reached named found (Node.kind_ne_link inside)
          constructor
          · rw [arrived]
            exact fun impossible => by cases impossible
          · intro last again
            rw [arrived] at again
            cases again
            exact opened.of_entry held
      | _ => cases directory
    · exact failing (resolve_join_of_ne named reached directory) (by decide)

theorem Admits.foldl_join (free : tree.top.linkFree = true) (filled : path.bytes ≠ []) (admits : tree.Admits path)
    (named : ∀ name ∈ names, isName name = true) : tree.Admits (names.foldl Path.join path) := by
  induction names generalizing path with
  | nil => exact admits
  | cons name names ih =>
    obtain ⟨first, rest⟩ := List.forall_mem_cons.1 named
    exact ih (path.join_ne_nil (isName_iff.1 first).1) (admits.join free filled first) rest

/-- Where a visitor is refused nowhere, a path leads nowhere for the same reason as for the owner. -/
theorem resolve_visitor_of_lacks {why : Absence} (reaches : tree.resolve .visitor path ≠ .error .permissionDenied)
    (short : ∀ name ∈ path.names, name.length ≤ nameLimit) (lacks : tree.Lacks path why) :
    tree.resolve .visitor path = .error why.fault := by
  rcases tree.resolve_visitor_cases path with same | refused
  · rw [same, resolve_of_lacks short lacks]
  · exact absurd refused reaches

end Admitting

end BundleServer.FileTree
