import BundleServer.FileTree.Change

/-!
# What a tree shows along a path

The names that lead to a place cut a tree down to that place: the directories on the way with the one entry that leads
on, and all that stands at the place. A change at another place, neither on the way nor beneath, leaves the restricted
tree as it is. The induction is on the names that lead to the change.
-/

namespace BundleServer.FileTree

namespace Entries

variable {name other : Bytes}

theorem find?_cons (name other : Bytes) (node : Node) (rest : Entries) :
    find? name ((other, node) :: rest) = if other = name then some node else find? name rest := rfl

theorem find?_put_of_ne (differs : other ≠ name) (node : Node) (entries : Entries) :
    find? other (put name node entries) = find? other entries := by
  induction entries with
  | nil =>
    unfold put
    rw [find?_cons, if_neg differs.symm]
  | cons head rest ih =>
    obtain ⟨third, held⟩ := head
    unfold put
    by_cases same : third = name
    · subst same
      rw [if_pos rfl, find?_cons, find?_cons, if_neg differs.symm, if_neg differs.symm]
    · rw [if_neg same, find?_cons, find?_cons, ih]

theorem find?_erase_of_ne (differs : other ≠ name) (entries : Entries) :
    find? other (erase name entries) = find? other entries := by
  induction entries with
  | nil => rfl
  | cons head rest ih =>
    obtain ⟨third, held⟩ := head
    unfold erase at ih ⊢
    by_cases same : third = name
    · have dropped : decide (third ≠ name) = false := by simp [same]
      rw [List.filter_cons_of_neg (by simp [dropped]), ih, find?_cons, if_neg (same ▸ differs.symm)]
    · rw [List.filter_cons_of_pos (by simp [same]), find?_cons, find?_cons, ih]

theorem find?_modify_of_ne (differs : other ≠ name) (change : Node → Node) (entries : Entries) :
    find? other (modify name change entries) = find? other entries := by
  induction entries with
  | nil => rfl
  | cons head rest ih =>
    obtain ⟨third, held⟩ := head
    unfold modify at ih ⊢
    rw [List.map_cons]
    by_cases same : third = name
    · subst same
      rw [if_pos rfl, find?_cons, find?_cons, if_neg differs.symm, if_neg differs.symm, ih]
    · rw [if_neg same, find?_cons, find?_cons, ih]

theorem find?_modify (name : Bytes) (change : Node → Node) (entries : Entries) :
    find? name (modify name change entries) = (find? name entries).map change := by
  induction entries with
  | nil => rfl
  | cons head rest ih =>
    obtain ⟨other, held⟩ := head
    unfold modify at ih ⊢
    rw [List.map_cons]
    by_cases same : other = name
    · rw [if_pos same, find?_cons, find?_cons, if_pos same, if_pos same, Option.map_some]
    · rw [if_neg same, find?_cons, find?_cons, if_neg same, if_neg same, ih]

end Entries

namespace Node

/-- The node with nothing else than what leads to the place, and the place itself. -/
def restrict : List Bytes → Node → Node
  | [], node => node
  | name :: rest, .directory access entries =>
    .directory access ((Entries.find? name entries).map fun node => (name, restrict rest node)).toList
  | _ :: _, node => node

mutual

/-- Is no node a symbolic link? -/
def linkFree : Node → Bool
  | .directory _ entries => linkFreeEntries entries
  | .link _ => false
  | _ => true

/-- Is no node of the entries a symbolic link? -/
def linkFreeEntries : List (Bytes × Node) → Bool
  | [] => true
  | (_, node) :: rest => node.linkFree && linkFreeEntries rest

end

theorem restrict_directory (name : Bytes) (rest : List Bytes) (access : Access) (entries : Entries) :
    (directory access entries).restrict (name :: rest) =
      directory access ((Entries.find? name entries).map fun node => (name, restrict rest node)).toList := rfl

theorem mapEntries_directory (change : Entries → Entries) (access : Access) (entries : Entries) :
    (directory access entries).mapEntries change = directory access (change entries) := rfl

theorem modifyAt_cons (change : Node → Node) (name : Bytes) (rest : List Bytes) (node : Node) :
    modifyAt change (name :: rest) node = node.mapEntries (Entries.modify name (modifyAt change rest)) := rfl

/-- Changing a node is changing its entry in the directory that holds it. -/
theorem modifyAt_concat (change : Node → Node) (front : List Bytes) (name : Bytes) (node : Node) :
    modifyAt change (front ++ [name]) node = modifyAt (mapEntries (Entries.modify name change)) front node := by
  induction front generalizing node with
  | nil => rfl
  | cons first front ih =>
    have inside : modifyAt change (front ++ [name]) = modifyAt (mapEntries (Entries.modify name change)) front :=
      funext ih
    rw [List.cons_append, modifyAt_cons, modifyAt_cons, inside]

theorem linkFree_of_mem {entries : Entries} (free : linkFreeEntries entries = true) {entry : Bytes × Node}
    (member : entry ∈ entries) : entry.2.linkFree = true := by
  induction entries with
  | nil => cases member
  | cons head rest ih =>
    obtain ⟨name, node⟩ := head
    unfold linkFreeEntries at free
    rw [Bool.and_eq_true] at free
    rcases List.mem_cons.1 member with rfl | later
    · exact free.1
    · exact ih free.2 later

/-- A change of entries that leaves alone all but one name does not show where another name is looked up. -/
theorem restrict_mapEntries {other : Bytes} {change : Entries → Entries}
    (keeps : ∀ entries, Entries.find? other (change entries) = Entries.find? other entries) (rest : List Bytes)
    (node : Node) : (node.mapEntries change).restrict (other :: rest) = node.restrict (other :: rest) := by
  cases node with
  | directory access entries =>
    rw [mapEntries_directory, restrict_directory, restrict_directory, keeps entries]
  | _ => rfl

/-- A change of one entry somewhere does not show along names that neither lead through the entry nor end above it. -/
theorem restrict_modifyAt_entry {name : Bytes} {change : Entries → Entries}
    (keeps : ∀ other ≠ name, ∀ entries, Entries.find? other (change entries) = Entries.find? other entries)
    {front scope : List Bytes} (notAbove : ¬ front ++ [name] <+: scope) (notBeneath : ¬ scope <+: front ++ [name])
    (node : Node) : (modifyAt (mapEntries change) front node).restrict scope = node.restrict scope := by
  induction front generalizing scope node with
  | nil =>
    cases scope with
    | nil => exact absurd List.nil_prefix notBeneath
    | cons other rest =>
      have differs : other ≠ name := by
        rintro rfl
        apply notAbove
        exact List.cons_prefix_cons.2 ⟨rfl, List.nil_prefix⟩
      exact restrict_mapEntries (keeps other differs) rest node
  | cons first front ih =>
    cases scope with
    | nil => exact absurd List.nil_prefix notBeneath
    | cons other rest =>
      by_cases same : other = first
      · subst same
        rw [List.cons_append, List.cons_prefix_cons] at notAbove notBeneath
        have above : ¬ front ++ [name] <+: rest := fun leads => notAbove ⟨rfl, leads⟩
        have beneath : ¬ rest <+: front ++ [name] := fun leads => notBeneath ⟨rfl, leads⟩
        cases node with
        | directory access entries =>
          have inside : ∀ node, restrict rest (modifyAt (mapEntries change) front node) = restrict rest node :=
            ih above beneath
          rw [modifyAt_cons, mapEntries_directory, restrict_directory, restrict_directory, Entries.find?_modify,
            Option.map_map]
          simp only [Function.comp_def, inside]
        | _ => rfl
      · apply restrict_mapEntries
        exact Entries.find?_modify_of_ne same _

/-- A change of a node shows only along names that lead through it or end above it. -/
theorem restrict_modifyAt {place scope : List Bytes} (notAbove : ¬ place <+: scope) (notBeneath : ¬ scope <+: place)
    (change : Node → Node) (node : Node) : (modifyAt change place node).restrict scope = node.restrict scope := by
  obtain rfl | ⟨front, name, rfl⟩ := List.eq_nil_or_concat place
  · exact absurd List.nil_prefix notAbove
  · rw [List.concat_eq_append] at notAbove notBeneath ⊢
    rw [modifyAt_concat]
    apply restrict_modifyAt_entry _ notAbove notBeneath
    intro other differs entries
    exact Entries.find?_modify_of_ne differs change entries

end Node

end BundleServer.FileTree
