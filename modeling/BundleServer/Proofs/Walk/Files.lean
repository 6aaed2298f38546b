import BundleServer.Proofs.Walk.OneFile

/-!
# The files below a directory

Where every directory can be listed and searched and there are no symbolic links, a walk gives an item for each regular
file whose path ends with the suffix, at whatever depth, and for nothing else (`mem_items_iff`). How siblings are
arranged makes no difference to this. The induction is on the size of the node. That a given node is open is seen from
the list of all nodes below it (`isOpen_of_descendants`).
-/

namespace BundleServer

open FileTree (Access Node Entries)

/-- Below a node stands a regular file whose path from the root ends with the suffix. Read, it gives the fragment. -/
structure FileTree.Node.Offers (node : Node) (root : Path) (suffix : Bytes) (names : List Bytes) (access : Access)
    (fragment : Fragment) : Prop where
  held : node.at? names = some (.file access fragment.content)
  named : names.getLast? = some fragment.name
  placed : fragment.path = names.foldl Path.join root
  selected : Walk.selects suffix fragment.path = true

/-- Can every directory be listed and searched, from the node down? -/
def FileTree.Node.IsOpen (node : Node) : Prop :=
  ∀ names access entries, node.at? names = some (.directory access entries) →
    access.read = true ∧ access.search = true

/-- Does a path lead to a directory that is open all the way down, in a tree without symbolic links? -/
structure FileTree.Opens (tree : FileTree) (root : Path) (node : Node) : Prop where
  free : tree.top.linkFree = true
  reached : ∃ above, tree.resolve .visitor root = .ok ⟨node, above⟩
  directory : node.kind = .directory
  opened : node.IsOpen

/-- Can every file be read that a node offers? -/
def FileTree.Node.IsReadable (node : Node) (root : Path) (suffix : Bytes) : Prop :=
  ∀ names access fragment, node.Offers root suffix names access fragment → access.read = true

theorem FileTree.Opens.kind_eq {tree : FileTree} {root : Path} {node : Node} (opens : tree.Opens root node) :
    tree.kind root = .ok .directory := by
  obtain ⟨above, reached⟩ := opens.reached
  rw [FileTree.kind, reached, Except.map, opens.directory]

theorem FileTree.Opens.wellFormed {tree : FileTree} {root : Path} {node : Node} (opens : tree.Opens root node) :
    node.WellFormed := by
  obtain ⟨above, reached⟩ := opens.reached
  exact (FileTree.wellFormed_of_resolve reached).1

namespace FileTree.Node

variable {node target : Node} {names : List Bytes}

/-- Below anything but a directory there is nothing. -/
theorem at?_of_ne_directory (plain : node.kind ≠ .directory) :
    node.at? names = some target ↔ names = [] ∧ node = target := by
  cases names with
  | nil => simp [at?]
  | cons name rest =>
    cases node with
    | directory access entries => exact absurd rfl plain
    | _ => simp [at?]

theorem at?_cons_of_mem {access : Access} {entries : Entries} (distinct : (entries.map Prod.fst).Nodup)
    {entry : Bytes × Node} (held : entry ∈ entries) (rest : List Bytes) :
    (directory access entries).at? (entry.1 :: rest) = entry.2.at? rest := by
  rw [at?, Entries.find?_of_mem distinct held, Option.bind_some]

theorem exists_of_at?_cons {access : Access} {entries : Entries} {name : Bytes}
    (held : (directory access entries).at? (name :: names) = some target) :
    ∃ child, (name, child) ∈ entries ∧ child.at? names = some target := by
  rw [at?] at held
  obtain ⟨child, found, further⟩ := Option.bind_eq_some_iff.1 held
  exact ⟨child, Entries.mem_of_find? found, further⟩

/-- The names that lead down in a well-formed node are names that entries can have. -/
theorem isName_of_at? (formed : node.WellFormed) (held : node.at? names = some target) :
    ∀ name ∈ names, isName name = true := by
  induction names generalizing node with
  | nil =>
    intro name member
    cases member
  | cons first names ih =>
    cases node with
    | directory access entries =>
      obtain ⟨child, among, further⟩ := exists_of_at?_cons held
      obtain ⟨named, inner⟩ := (wellFormed_directory.1 formed).2 (first, child) among
      exact List.forall_mem_cons.2 ⟨named, ih inner further⟩
    | _ => cases held

mutual

/-- All nodes from a node down, each with the names that lead to it. -/
def descendants : Node → List (List Bytes × Node)
  | .directory access entries => ([], .directory access entries) :: descendantsOfEntries entries
  | node => [([], node)]

/-- All nodes of the entries and below them. -/
def descendantsOfEntries : List (Bytes × Node) → List (List Bytes × Node)
  | [] => []
  | (name, node) :: rest => (node.descendants.map fun found => (name :: found.1, found.2)) ++ descendantsOfEntries rest

end

theorem mem_descendantsOfEntries {entries : Entries} {entry : Bytes × Node} (held : entry ∈ entries)
    {found : List Bytes × Node} (member : found ∈ entry.2.descendants) :
    (entry.1 :: found.1, found.2) ∈ descendantsOfEntries entries := by
  induction entries with
  | nil => cases held
  | cons head rest ih =>
    rw [descendantsOfEntries, List.mem_append]
    rcases List.mem_cons.1 held with rfl | later
    · exact .inl (List.mem_map.2 ⟨found, member, rfl⟩)
    · exact .inr (ih later)

/-- Every node to which names lead is listed. -/
theorem mem_descendants_of_at? (held : node.at? names = some target) : (names, target) ∈ node.descendants := by
  induction names generalizing node with
  | nil =>
    obtain rfl := Option.some.inj held
    cases node <;> exact List.mem_cons_self
  | cons first names ih =>
    cases node with
    | directory access entries =>
      obtain ⟨child, among, further⟩ := exists_of_at?_cons held
      rw [descendants]
      exact List.mem_cons_of_mem _ (mem_descendantsOfEntries among (ih further))
    | _ => cases held

/-- May a visitor do with the node what a walk does: list and search a directory, and read a file? -/
def allows : Node → Bool
  | .directory access _ => access.read && access.search
  | .file access _ => access.read
  | _ => true

theorem isOpen_of_descendants
    (opened : ∀ found ∈ node.descendants, found.2.kind = .directory → found.2.allows = true) : node.IsOpen :=
  fun _ _ _ held => Bool.and_eq_true_iff.1 (opened _ (mem_descendants_of_at? held) rfl)

theorem isReadable_of_descendants {root : Path} {suffix : Bytes}
    (readable : ∀ found ∈ node.descendants, Walk.selects suffix (found.1.foldl Path.join root) = true →
      found.2.allows = true) : node.IsReadable root suffix :=
  fun _ _ _ offers => readable _ (mem_descendants_of_at? offers.held) (offers.placed ▸ offers.selected)

end FileTree.Node

namespace Walk

variable {tree : FileTree} {suffix : Bytes}
  {arrange : Path → List (Bytes × FileTree.Kind) → List (Bytes × FileTree.Kind)} {node : Node}

theorem mem_itemsOfFile_iff {readable : Bool} {path : Path} {name content : Bytes} {item : Item} :
    item ∈ itemsOfFile suffix readable path name content ↔ selects suffix path = true ∧
      item = if readable then .ok ⟨path, name, content⟩ else .error (.read path (.access .permissionDenied)) := by
  unfold itemsOfFile
  split
  · rename_i selected
    rw [List.mem_singleton, and_iff_right selected]
  · rename_i ignored
    constructor
    · intro member
      cases member
    · intro found
      exact absurd found.1 ignored

/-- The items of a directory are those of its entries, however they are arranged. -/
theorem mem_traverse_directory_iff (ordered : ∀ path entries, (arrange path entries).Perm entries) {access : Access}
    {entries : Entries} (distinct : (entries.map Prod.fst).Nodup) (readable : access.read = true)
    (searchable : access.search = true) {path : Path} {name : Bytes} {item : Item} :
    item ∈ traverse tree suffix arrange true path name (.directory access entries) ↔
      ∃ entry ∈ entries, item ∈ traverse tree suffix arrange true (path.join entry.1) entry.1 entry.2 := by
  have allowed : (true && access.read) = true := by rw [readable, Bool.and_self]
  rw [traverse, if_pos allowed, List.mem_flatMap, searchable]
  constructor
  · rintro ⟨listed, arranged, member⟩
    obtain ⟨entry, held, rfl⟩ := List.mem_map.1 ((ordered path (listing entries)).mem_iff.1 arranged)
    rw [lookup_traverseEntries distinct held, Option.getD_some] at member
    exact ⟨entry, held, member⟩
  · rintro ⟨entry, held, member⟩
    have arranged : (entry.1, entry.2.kind) ∈ arrange path (listing entries) :=
      (ordered path (listing entries)).mem_iff.2 (List.mem_map.2 ⟨entry, held, rfl⟩)
    refine ⟨_, arranged, ?_⟩
    rw [lookup_traverseEntries distinct held, Option.getD_some]
    exact member

/-- The items of an open node are those of the regular files below it. -/
theorem mem_traverse_iff (ordered : ∀ path entries, (arrange path entries).Perm entries) (formed : node.WellFormed)
    (free : node.linkFree = true) (opened : node.IsOpen) {path : Path} {name : Bytes} {item : Item} :
    item ∈ traverse tree suffix arrange true path name node ↔
      ∃ names access content, node.at? names = some (.file access content) ∧
        selects suffix (names.foldl Path.join path) = true ∧
        item = itemOf ⟨names.foldl Path.join path, names.getLast?.getD name, content⟩ access content := by
  induction size : node.size using Nat.strongRecOn generalizing node path name with
  | ind bound ih =>
    cases node with
    | link target => cases free
    | fifo access =>
      have plain : (Node.fifo access).kind ≠ .directory := by simp [Node.kind]
      simp [traverse, Node.at?_of_ne_directory plain]
    | file access content =>
      have plain : (Node.file access content).kind ≠ .directory := by simp [Node.kind]
      rw [traverse, mem_itemsOfFile_iff, Bool.true_and]
      constructor
      · rintro ⟨selected, rfl⟩
        exact ⟨[], access, content, rfl, selected, rfl⟩
      · rintro ⟨names, access', content', held, selected, rfl⟩
        obtain ⟨rfl, same⟩ := (Node.at?_of_ne_directory plain).1 held
        cases same
        exact ⟨selected, rfl⟩
    | directory access entries =>
      rw [Node.wellFormed_directory] at formed
      obtain ⟨readable, searchable⟩ := opened [] access entries rfl
      have inner {entry : Bytes × Node} (held : entry ∈ entries) :
          item ∈ traverse tree suffix arrange true (path.join entry.1) entry.1 entry.2 ↔
            ∃ names access content, entry.2.at? names = some (.file access content) ∧
              selects suffix (names.foldl Path.join (path.join entry.1)) = true ∧
              item = itemOf ⟨names.foldl Path.join (path.join entry.1), names.getLast?.getD entry.1, content⟩ access
                content := by
        have smaller : entry.2.size < bound := size ▸ Node.size_lt_of_mem held
        have openedBelow : entry.2.IsOpen := fun names access' entries' further =>
          opened (entry.1 :: names) access' entries' ((Node.at?_cons_of_mem formed.1 held names).trans further)
        exact ih entry.2.size smaller (formed.2 entry held).2 (Node.linkFree_of_mem free held) openedBelow rfl
      rw [mem_traverse_directory_iff ordered formed.1 readable searchable]
      constructor
      · rintro ⟨entry, held, member⟩
        obtain ⟨names, access', content, further, selected, rfl⟩ := (inner held).1 member
        refine ⟨entry.1 :: names, access', content, (Node.at?_cons_of_mem formed.1 held names).trans further, selected,
          ?_⟩
        rw [List.getLast?_cons, Option.getD_some]
        rfl
      · rintro ⟨names, access', content, held, selected, rfl⟩
        cases names with
        | nil => cases held
        | cons first names =>
          obtain ⟨child, among, further⟩ := Node.exists_of_at?_cons held
          refine ⟨(first, child), among, (inner among).2 ⟨names, access', content, further, selected, ?_⟩⟩
          rw [List.getLast?_cons, Option.getD_some]
          rfl

/-- A walk over an open directory meets the files that the directory offers, and nothing else. -/
theorem mem_items_iff {root : Path} (opens : tree.Opens root node) {order : SiblingOrder} {walk : Walk}
    (started : start tree root suffix order = .ok walk) {item : Item} : item ∈ walk.items tree ↔
      ∃ names access fragment, node.Offers root suffix names access fragment ∧
        item = itemOf fragment access fragment.content := by
  obtain ⟨above, reached⟩ := opens.reached
  rw [items_of_start started, traversal, reached]
  simp only
  rw [mem_traverse_iff order.arrange_perm (FileTree.wellFormed_of_resolve reached).1
    (FileTree.linkFree_of_stands opens.free (FileTree.stands_of_resolve reached)) opens.opened]
  constructor
  · rintro ⟨names, access, content, held, selected, rfl⟩
    have below : names ≠ [] := by
      rintro rfl
      cases held
      cases opens.directory
    obtain ⟨last, ending⟩ := Option.isSome_iff_exists.1 (List.getLast?_isSome.2 below)
    refine ⟨names, access, _, ⟨held, ?_, rfl, selected⟩, rfl⟩
    rw [ending, Option.getD_some]
  · rintro ⟨names, access, fragment, ⟨held, named, placed, selected⟩, rfl⟩
    refine ⟨names, access, fragment.content, held, placed ▸ selected, ?_⟩
    rw [named, Option.getD_some, ← placed]

/-- If all files can be read that an open directory offers, a walk gives their fragments and no errors. -/
theorem mem_items_iff_of_readable {root : Path} (opens : tree.Opens root node) (readable : node.IsReadable root suffix)
    {order : SiblingOrder} {walk : Walk} (started : start tree root suffix order = .ok walk) {item : Item} :
    item ∈ walk.items tree ↔
      ∃ names access fragment, node.Offers root suffix names access fragment ∧ item = .ok fragment := by
  have read {names : List Bytes} {access : Access} {fragment : Fragment}
      (offers : node.Offers root suffix names access fragment) :
      itemOf fragment access fragment.content = .ok fragment := by
    rw [itemOf, if_pos (readable names access fragment offers)]
  rw [mem_items_iff opens started]
  constructor
  · rintro ⟨names, access, fragment, offers, rfl⟩
    exact ⟨names, access, fragment, offers, read offers⟩
  · rintro ⟨names, access, fragment, offers, rfl⟩
    exact ⟨names, access, fragment, offers, (read offers).symm⟩

end Walk

end BundleServer
