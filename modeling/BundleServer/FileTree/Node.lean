import BundleServer.Path

/-!
# Nodes of the file tree

A node is a regular file, a directory with named entries, a symbolic link or a fifo. In a well-formed node the
entries of every directory have different names, and each name is one that a path can spell.
-/

namespace BundleServer.FileTree

/-- What a visitor may do with a node. Reading a directory means listing it; searching it means reaching
anything through it. -/
structure Access where
  read : Bool
  search : Bool
  deriving DecidableEq, Repr

namespace Access

/-- The permissions in one octal digit. -/
def ofDigit (digit : Nat) : Access := ⟨digit / 4 % 2 = 1, digit % 2 = 1⟩

/-- What files are created with. -/
def ofFile : Access := ofDigit 4

/-- What directories are created with. -/
def ofDirectory : Access := ofDigit 5

end Access

/-- The kinds of nodes. -/
inductive Kind where
  | file
  | directory
  | link
  | fifo
  deriving DecidableEq, Repr

/-- A node and all that stands below it. -/
inductive Node where
  | file (access : Access) (content : Bytes)
  | directory (access : Access) (entries : List (Bytes × Node))
  | link (target : Path)
  | fifo (access : Access)
  deriving Repr

/-- The named entries of a directory. -/
abbrev Entries := List (Bytes × Node)

/-- The greatest length of a name. -/
def nameLimit : Nat := 255

/-- Can the bytes be the name of an entry? -/
def isName (name : Bytes) : Bool :=
  name ≠ [] && name ≠ [Path.dot] && name ≠ [Path.dot, Path.dot] &&
    !name.contains Path.separator && !name.contains 0 && name.length ≤ nameLimit

namespace Entries

/-- The entry of a name. -/
def find? (name : Bytes) : Entries → Option Node
  | [] => none
  | (other, node) :: rest => if other = name then some node else find? name rest

/-- Puts a node under a name, in place of an entry of that name. -/
def put (name : Bytes) (node : Node) : Entries → Entries
  | [] => [(name, node)]
  | (other, held) :: rest =>
    if other = name then (name, node) :: rest else (other, held) :: put name node rest

/-- Removes the entry of a name. -/
def erase (name : Bytes) (entries : Entries) : Entries := entries.filter (·.1 ≠ name)

/-- Changes the node of a name. -/
def modify (name : Bytes) (change : Node → Node) (entries : Entries) : Entries :=
  entries.map fun entry => if entry.1 = name then (entry.1, change entry.2) else entry

end Entries

namespace Node

/-- The kind of a node. -/
def kind : Node → Kind
  | .file .. => .file
  | .directory .. => .directory
  | .link _ => .link
  | .fifo _ => .fifo

/-- The node with other permissions. A link has none. -/
def withAccess (access : Access) : Node → Node
  | .file _ content => .file access content
  | .directory _ entries => .directory access entries
  | .link target => .link target
  | .fifo _ => .fifo access

/-- The file with other content. -/
def withContent (content : Bytes) : Node → Node
  | .file access _ => .file access content
  | node => node

/-- The directory with its entries changed. -/
def mapEntries (change : Entries → Entries) : Node → Node
  | .directory access entries => .directory access (change entries)
  | node => node

/-- Changes the node to which names lead down from here. Where the names lead nowhere nothing changes. -/
def modifyAt (change : Node → Node) : List Bytes → Node → Node
  | [], node => change node
  | name :: rest, node => node.mapEntries (Entries.modify name (modifyAt change rest))

mutual

/-- How many nodes there are, counting this one. -/
def size : Node → Nat
  | .directory _ entries => sizeOfEntries entries + 1
  | _ => 1

/-- How many nodes the entries hold. -/
def sizeOfEntries : List (Bytes × Node) → Nat
  | [] => 0
  | (_, node) :: rest => node.size + sizeOfEntries rest

end

mutual

/-- Do all directories have different names for their entries, and names only? -/
def WellFormed : Node → Prop
  | .directory _ entries => (entries.map Prod.fst).Nodup ∧ WellFormedEntries entries
  | _ => True

/-- Does every entry have a name, and a well-formed node? -/
def WellFormedEntries : List (Bytes × Node) → Prop
  | [] => True
  | (name, node) :: rest => isName name = true ∧ node.WellFormed ∧ WellFormedEntries rest

end

theorem wellFormedEntries_iff {entries : Entries} :
    WellFormedEntries entries ↔ ∀ entry ∈ entries, isName entry.1 = true ∧ entry.2.WellFormed := by
  induction entries with
  | nil => simp [WellFormedEntries]
  | cons entry rest ih => simp [WellFormedEntries, ih, and_assoc]

theorem wellFormed_directory {access : Access} {entries : Entries} :
    (directory access entries).WellFormed ↔
      (entries.map Prod.fst).Nodup ∧ ∀ entry ∈ entries, isName entry.1 = true ∧ entry.2.WellFormed := by
  rw [WellFormed, wellFormedEntries_iff]

theorem WellFormed.withAccess {node : Node} (h : node.WellFormed) (access : Access) :
    (node.withAccess access).WellFormed := by
  cases node <;> simp_all [Node.withAccess, WellFormed]

theorem WellFormed.withContent {node : Node} (h : node.WellFormed) (content : Bytes) :
    (node.withContent content).WellFormed := by
  cases node <;> simp_all [Node.withContent, WellFormed]

end Node

namespace Entries

theorem mem_of_find? {name : Bytes} {entries : Entries} {node : Node} (h : find? name entries = some node) :
    (name, node) ∈ entries := by
  induction entries with
  | nil => simp [find?] at h
  | cons entry rest ih =>
    obtain ⟨other, held⟩ := entry
    unfold find? at h
    split at h
    · simp_all
    · exact List.mem_cons_of_mem _ (ih h)

theorem find?_of_mem {name : Bytes} {entries : Entries} {node : Node} (distinct : (entries.map Prod.fst).Nodup)
    (h : (name, node) ∈ entries) : find? name entries = some node := by
  induction entries with
  | nil => simp at h
  | cons entry rest ih =>
    obtain ⟨other, held⟩ := entry
    simp only [List.map_cons, List.nodup_cons, List.mem_map, Prod.exists, exists_and_right,
      exists_eq_right, not_exists] at distinct
    unfold find?
    split
    · rename_i same
      subst same
      rcases List.mem_cons.1 h with h | h
      · simp_all
      · exact absurd h (distinct.1 node)
    · rename_i differs
      rcases List.mem_cons.1 h with h | h
      · simp_all
      · exact ih distinct.2 h

/-- The names of the entries after a put are the old ones and the new one. -/
theorem mem_put {name : Bytes} {node : Node} {entries : Entries} {entry : Bytes × Node}
    (h : entry ∈ put name node entries) : entry = (name, node) ∨ entry ∈ entries := by
  induction entries with
  | nil => simpa [put] using h
  | cons head rest ih =>
    obtain ⟨other, held⟩ := head
    unfold put at h
    split at h
    · rcases List.mem_cons.1 h with h | h
      · exact .inl h
      · exact .inr (List.mem_cons_of_mem _ h)
    · rcases List.mem_cons.1 h with h | h
      · exact .inr (by simp [h])
      · exact (ih h).imp id (List.mem_cons_of_mem _)

theorem nodup_put (name : Bytes) (node : Node) {entries : Entries} (distinct : (entries.map Prod.fst).Nodup) :
    ((put name node entries).map Prod.fst).Nodup := by
  induction entries with
  | nil => simp [put]
  | cons head rest ih =>
    obtain ⟨other, held⟩ := head
    simp only [List.map_cons, List.nodup_cons] at distinct
    unfold put
    split
    · rename_i same
      subst same
      simpa using distinct
    · rename_i differs
      simp only [List.map_cons, List.nodup_cons]
      refine ⟨fun h => ?_, ih distinct.2⟩
      obtain ⟨entry, member, same⟩ := List.mem_map.1 h
      rcases mem_put member with rfl | member
      · exact differs same.symm
      · exact distinct.1 (List.mem_map.2 ⟨entry, member, same⟩)

theorem nodup_erase (name : Bytes) {entries : Entries} (distinct : (entries.map Prod.fst).Nodup) :
    ((erase name entries).map Prod.fst).Nodup :=
  distinct.sublist (List.filter_sublist.map _)

theorem map_fst_modify (name : Bytes) (change : Node → Node) (entries : Entries) :
    (modify name change entries).map Prod.fst = entries.map Prod.fst := by
  simp only [modify, List.map_map]
  refine List.map_congr_left fun entry _ => ?_
  simp only [Function.comp_apply]
  split <;> rfl

end Entries

namespace Node

theorem WellFormed.put {node child : Node} (h : node.WellFormed) {name : Bytes} (named : isName name = true)
    (inner : child.WellFormed) : (node.mapEntries (Entries.put name child)).WellFormed := by
  cases node with
  | directory access entries =>
    rw [wellFormed_directory] at h
    refine wellFormed_directory.2 ⟨Entries.nodup_put name child h.1, fun entry member => ?_⟩
    rcases Entries.mem_put member with rfl | member
    · exact ⟨named, inner⟩
    · exact h.2 entry member
  | _ => exact h

theorem WellFormed.erase {node : Node} (h : node.WellFormed) (name : Bytes) :
    (node.mapEntries (Entries.erase name)).WellFormed := by
  cases node with
  | directory access entries =>
    rw [wellFormed_directory] at h
    exact wellFormed_directory.2
      ⟨Entries.nodup_erase name h.1, fun entry member => h.2 entry (List.mem_filter.1 member).1⟩
  | _ => exact h

/-- Changing a node deep inside keeps the whole well-formed if it keeps that node so. -/
theorem WellFormed.modifyAt {change : Node → Node} (keeps : ∀ node : Node, node.WellFormed → (change node).WellFormed)
    (names : List Bytes) {node : Node} (h : node.WellFormed) : (modifyAt change names node).WellFormed := by
  induction names generalizing node with
  | nil => exact keeps node h
  | cons name names ih =>
    cases node with
    | directory access entries =>
      rw [wellFormed_directory] at h
      refine wellFormed_directory.2 ⟨by rw [Entries.map_fst_modify]; exact h.1, fun entry member => ?_⟩
      obtain ⟨old, held, rfl⟩ := List.mem_map.1 member
      split
      · exact ⟨(h.2 old held).1, ih (h.2 old held).2⟩
      · exact h.2 old held
    | _ => exact h

theorem size_le_of_mem {entries : Entries} {entry : Bytes × Node} (h : entry ∈ entries) :
    entry.2.size ≤ sizeOfEntries entries := by
  induction entries with
  | nil => simp at h
  | cons head rest ih =>
    rw [sizeOfEntries]
    rcases List.mem_cons.1 h with rfl | h
    · omega
    · have := ih h
      omega

/-- The node of an entry is smaller than the directory. -/
theorem size_lt_of_mem {access : Access} {entries : Entries} {entry : Bytes × Node} (h : entry ∈ entries) :
    entry.2.size < (directory access entries).size := by
  have fits := size_le_of_mem h
  rw [size]
  omega

end Node

end BundleServer.FileTree
