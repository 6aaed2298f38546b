import BundleServer.Proofs.FileTree.Descent
import BundleServer.Proofs.FileTree.Restriction
import BundleServer.Proofs.Path

/-!
# What lookup sees of a scope

Two trees that show the same of a scope, and no link in it, cannot be told apart by the lookup of a path that leads
into the scope. One step keeps what the two have in common (`SameOn.child`), and the lookup by induction on the steps.
-/

namespace BundleServer.FileTree

/-- Do two nodes show the same of a scope, and no symbolic link there? -/
structure SameOn (scope : List Bytes) (first second : Node) : Prop where
  same : first.restrict scope = second.restrict scope
  free : (first.restrict scope).linkFree = true

namespace SameOn

variable {scope : List Bytes} {first second : Node}

theorem eq (same : SameOn [] first second) : first = second := same.same

theorem symm (same : SameOn scope first second) : SameOn scope second first :=
  ⟨same.same.symm, same.same ▸ same.free⟩

/-- Nodes that show the same are both directories with the same permissions, or the same node. -/
theorem cases (same : SameOn scope first second) :
    first = second ∨
      ∃ access entries entries', first = .directory access entries ∧ second = .directory access entries' := by
  cases scope with
  | nil => exact .inl same.eq
  | cons name rest =>
    have shown := same.same
    cases first with
    | directory access entries =>
      cases second with
      | directory access' entries' =>
        rw [Node.restrict_directory, Node.restrict_directory] at shown
        injection shown with sameAccess _
        exact .inr ⟨access, entries, entries', rfl, by rw [sameAccess]⟩
      | _ => cases shown
    | _ =>
      cases second with
      | directory access' entries' => cases shown
      | _ => exact .inl shown

theorem kind_eq (same : SameOn scope first second) : first.kind = second.kind := by
  rcases same.cases with rfl | ⟨access, entries, entries', rfl, rfl⟩
  · rfl
  · rfl

theorem not_link (same : SameOn scope first second) : first.kind ≠ .link := by
  intro link
  have free := same.free
  cases first with
  | link target =>
    cases scope with
    | nil => cases free
    | cons name rest => cases free
  | _ => cases link

/-- Entries that lead on into the scope are both missing, or show the same of what remains of it. -/
theorem entry {access : Access} {entries entries' : Entries}
    (same : SameOn scope (.directory access entries) (.directory access entries')) {name : Bytes}
    (leads : ∀ wanted ∈ scope.head?, wanted = name) :
    (Entries.find? name entries = none ∧ Entries.find? name entries' = none) ∨
      ∃ node node', Entries.find? name entries = some node ∧ Entries.find? name entries' = some node' ∧
        SameOn scope.tail node node' := by
  obtain ⟨shown, free⟩ := same
  cases scope with
  | nil =>
    cases shown
    cases held : Entries.find? name entries with
    | none => exact .inl ⟨rfl, rfl⟩
    | some node =>
      refine .inr ⟨node, node, rfl, rfl, rfl, ?_⟩
      exact Node.linkFree_of_mem free (Entries.mem_of_find? held)
  | cons wanted rest =>
    have here : wanted = name := leads wanted rfl
    subst here
    rw [Node.restrict_directory, Node.restrict_directory] at shown
    injection shown with _ shownEntries
    rw [Node.restrict_directory] at free
    cases held : Entries.find? wanted entries with
    | none =>
      cases held' : Entries.find? wanted entries' with
      | none => exact .inl ⟨rfl, rfl⟩
      | some node' => simp [held, held'] at shownEntries
    | some node =>
      cases held' : Entries.find? wanted entries' with
      | none => simp [held, held'] at shownEntries
      | some node' =>
        rw [held] at free
        simp only [held, held', Option.map_some, Option.toList_some, List.cons.injEq, Prod.mk.injEq, true_and,
          and_true] at shownEntries
        refine .inr ⟨node, node', rfl, rfl, shownEntries, ?_⟩
        exact Node.linkFree_of_mem free List.mem_cons_self

end SameOn

section Lookup

variable {scope : List Bytes} {first second : Spot} (caller : Caller)

theorem SameOn.search (same : SameOn scope first.node second.node) :
    (∃ fault, first.search caller = .error fault ∧ second.search caller = .error fault) ∨
      ∃ access entries entries', first.node = .directory access entries ∧ second.node = .directory access entries' ∧
        first.search caller = .ok entries ∧ second.search caller = .ok entries' := by
  unfold Spot.search
  rcases same.cases with alike | ⟨access, entries, entries', one, other⟩
  · rw [alike]
    cases node : second.node with
    | directory access entries =>
      by_cases allowed : (caller = .owner || access.search) = true
      · exact .inr ⟨access, entries, entries, rfl, rfl, if_pos allowed, if_pos allowed⟩
      · exact .inl ⟨.permissionDenied, if_neg allowed, if_neg allowed⟩
    | _ => exact .inl ⟨.notDirectory, rfl, rfl⟩
  · rw [one, other]
    by_cases allowed : (caller = .owner || access.search) = true
    · exact .inr ⟨access, entries, entries', rfl, rfl, if_pos allowed, if_pos allowed⟩
    · exact .inl ⟨.permissionDenied, if_neg allowed, if_neg allowed⟩

/-- A name that leads on into the scope is refused for the same reason, or leads to nodes that show the same. -/
theorem SameOn.child (same : SameOn scope first.node second.node) {name : Bytes}
    (leads : ∀ wanted ∈ scope.head?, wanted = name) :
    (∃ fault, first.child caller name = .error fault ∧ second.child caller name = .error fault) ∨
      ∃ one other, first.child caller name = .ok one ∧ second.child caller name = .ok other ∧
        SameOn scope.tail one.node other.node := by
  unfold Spot.child
  rcases same.search caller with ⟨fault, one, other⟩ | ⟨access, entries, entries', node, node', one, other⟩
  · rw [one, other]
    exact .inl ⟨fault, rfl, rfl⟩
  · rw [one, other]
    simp only [bind, Except.bind]
    by_cases long : nameLimit < name.length
    · rw [if_pos long, if_pos long]
      exact .inl ⟨.nameTooLong, rfl, rfl⟩
    · rw [if_neg long, if_neg long]
      rw [node, node'] at same
      rcases same.entry leads with ⟨missing, missing'⟩ | ⟨found, found', held, held', further⟩
      · rw [missing, missing']
        exact .inl ⟨.notFound, rfl, rfl⟩
      · rw [held, held']
        exact .inr ⟨_, _, rfl, rfl, further⟩

/-- Steps down into the scope fail alike, or lead to the same node. The induction is on the steps: a name that is
taken is the first of the scope, or the scope is reached already. -/
theorem SameOn.descend (same : SameOn scope first.node second.node) {steps : List Step}
    (down : ∀ step ∈ steps, step.isDownward = true) (into : scope <+: namesOf steps) (links links' : Nat) :
    (∃ fault, descend caller links first steps = .error fault ∧ descend caller links' second steps = .error fault) ∨
      ∃ one other, descend caller links first steps = .ok one ∧ descend caller links' second steps = .ok other ∧
        SameOn [] one.1.node other.1.node := by
  induction steps generalizing scope first second with
  | nil =>
    obtain rfl := List.prefix_nil.1 into
    exact .inr ⟨_, _, descend_nil, descend_nil, same⟩
  | cons step rest ih =>
    rw [List.forall_mem_cons] at down
    cases step with
    | outermost => cases down.1
    | up => cases down.1
    | enter =>
      by_cases directory : first.node.kind = .directory
      · rw [descend_enter directory, descend_enter (same.kind_eq ▸ directory)]
        exact ih same down.2 into
      · exact .inl ⟨_, descend_enter_of_ne directory, descend_enter_of_ne (same.kind_eq ▸ directory)⟩
    | here =>
      rcases same.search caller with ⟨fault, one, other⟩ | ⟨access, entries, entries', _, _, one, other⟩
      · exact .inl ⟨fault, descend_here_of_refused one, descend_here_of_refused other⟩
      · rw [descend_here one, descend_here other]
        exact ih same down.2 into
    | name name =>
      have further : scope.tail <+: namesOf rest ∧ ∀ wanted ∈ scope.head?, wanted = name := by
        have names : namesOf (.name name :: rest) = name :: namesOf rest := rfl
        rw [names] at into
        cases scope with
        | nil => exact ⟨List.nil_prefix, by simp⟩
        | cons wanted scope =>
          rw [List.cons_prefix_cons] at into
          exact ⟨into.2, by simp [into.1]⟩
      rcases same.child caller further.2 with ⟨fault, one, other⟩ | ⟨child, child', one, other, alike⟩
      · exact .inl ⟨fault, descend_name_of_refused one, descend_name_of_refused other⟩
      · rw [descend_name one alike.not_link, descend_name other alike.symm.not_link]
        exact ih alike down.2 further.1

end Lookup

/-- Do two trees show the same of a scope, and no symbolic link there? -/
def SameTree (first : FileTree) (scope : List Bytes) (second : FileTree) : Prop := SameOn scope first.top second.top

namespace SameTree

variable {scope : List Bytes} {first second : FileTree} (same : first.SameTree scope second) {path : Path}
  (plain : path.IsPlain) (into : scope <+: path.names)

include same plain into

/-- A path into the scope is refused for the same reason in both trees, or leads to the same node. -/
theorem resolve_cases :
    (∃ fault, first.resolve .visitor path = .error fault ∧ second.resolve .visitor path = .error fault) ∨
      ∃ one other, first.resolve .visitor path = .ok one ∧ second.resolve .visitor path = .ok other ∧
        SameOn [] one.node other.node := by
  obtain ⟨down, names⟩ := steps_of_isPlain plain
  rw [← names] at into
  have tops : SameOn scope first.start.node second.start.node := same
  unfold resolve
  cases checked : checkedSteps path with
  | error fault => exact .inl ⟨fault, rfl, rfl⟩
  | ok taken =>
    obtain ⟨_, _, rfl⟩ := checkedSteps_eq_ok_iff.1 checked
    simp only [bind, Except.bind, walkFromTop]
    rcases tops.descend .visitor down into linkLimit linkLimit with
      ⟨fault, one, other⟩ | ⟨arrival, arrival', one, other, alike⟩
    · rw [one, other]
      exact .inl ⟨fault, rfl, rfl⟩
    · rw [one, other]
      exact .inr ⟨arrival.1, arrival'.1, rfl, rfl, alike⟩

theorem kind_eq : first.kind path = second.kind path := by
  unfold kind
  rcases same.resolve_cases plain into with ⟨fault, one, other⟩ | ⟨spot, spot', one, other, alike⟩
  · rw [one, other]
  · rw [one, other]
    exact congrArg (fun node : Node => Except.ok node.kind) alike.eq

theorem read_eq : first.read path = second.read path := by
  unfold read
  rcases same.resolve_cases plain into with ⟨fault, one, other⟩ | ⟨spot, spot', one, other, alike⟩
  · rw [one, other]
  · rw [one, other]
    simp only [alike.eq]

end SameTree

end BundleServer.FileTree
