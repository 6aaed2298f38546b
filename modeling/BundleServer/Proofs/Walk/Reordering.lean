import BundleServer.Proofs.FileTree.Relisting
import BundleServer.Proofs.Path
import BundleServer.Proofs.Walk.Session
import Mathlib.Data.List.Perm.Basic

/-!
# Other sequences of siblings

In which sequence siblings are taken decides in which sequence a walk gives its items, and nothing else. The items of a
file, of a link and of a directory that cannot be listed are at most one, and the items of a directory are those of its
entries one behind the other. So whatever relation of item lists holds for at most one item, and is kept by two ways to
arrange siblings, holds for the items of two walks (`traverse_carried`). This is used twice: any two orders give the
same items up to their sequence, and an order the other way round gives them backwards. In neither case does it matter
what the file system lists first.
-/

namespace BundleServer.Walk

open FileTree (Access Entries Node)

/-- Do two ways to arrange siblings carry a relation over from the items of each entry to those of the directory? -/
structure Carries (related : List Item → List Item → Prop)
    (arrange arrange' : Path → List (Bytes × FileTree.Kind) → List (Bytes × FileTree.Kind)) : Prop where
  short : ∀ {items : List Item}, items.length ≤ 1 → related items items
  join : ∀ {path : Path} {entries entries' : List (Bytes × FileTree.Kind)}, entries.Perm entries' →
    (entries.map Prod.fst).Nodup → (∀ entry ∈ entries, FileTree.isName entry.1 = true) →
    ∀ {give give' : Bytes × FileTree.Kind → List Item}, (∀ entry ∈ entries, related (give entry) (give' entry)) →
      related ((arrange path entries).flatMap give) ((arrange' path entries').flatMap give')

variable {tree other : FileTree} {suffix : Bytes}
  {arrange arrange' : Path → List (Bytes × FileTree.Kind) → List (Bytes × FileTree.Kind)}

theorem length_itemsOfFile_le (readable : Bool) (path : Path) (name content : Bytes) :
    (itemsOfFile suffix readable path name content).length ≤ 1 := by
  unfold itemsOfFile
  split <;> simp

theorem length_itemsOfVisited_le (visited : Visited) : (itemsOfVisited visited).length ≤ 1 := by
  cases visited <;> simp [itemsOfVisited]

theorem length_itemsOfLink_le (path : Path) (name : Bytes) : (itemsOfLink tree suffix path name).length ≤ 1 := by
  unfold itemsOfLink
  split
  · split
    · exact length_itemsOfVisited_le _
    · simp
    · simp
  · simp

theorem mem_listing_iff {entries : Entries} (distinct : (entries.map Prod.fst).Nodup)
    {listed : Bytes × FileTree.Kind} :
    listed ∈ listing entries ↔ ∃ node, Entries.find? listed.1 entries = some node ∧ node.kind = listed.2 := by
  rw [listing, List.mem_map]
  constructor
  · rintro ⟨⟨name, node⟩, member, rfl⟩
    exact ⟨node, Entries.find?_of_mem distinct member, rfl⟩
  · rintro ⟨node, held, kind⟩
    exact ⟨(listed.1, node), Entries.mem_of_find? held, Prod.ext rfl kind⟩

/-- Directories that relist one another list the same. -/
theorem listing_perm {entries entries' : Entries} (distinct : (entries.map Prod.fst).Nodup)
    (distinct' : (entries'.map Prod.fst).Nodup) (relists : ∀ name, Node.RelistsAt entries entries' name) :
    (listing entries).Perm (listing entries') := by
  have nodup {entries : Entries} (distinct : (entries.map Prod.fst).Nodup) : (listing entries).Nodup := by
    rw [← map_fst_listing] at distinct
    exact distinct.of_map
  refine (List.perm_ext_iff_of_nodup (nodup distinct) (nodup distinct')).2 fun listed => ?_
  rw [mem_listing_iff distinct, mem_listing_iff distinct']
  rcases relists listed.1 with ⟨missing, missing'⟩ | ⟨node, node', held, held', alike⟩
  · simp [missing, missing']
  · simp [held, held', alike.kind_eq]

/-- What two ways to arrange siblings carry over holds for the items of nodes that relist one another. The induction is
on the size of the node. -/
theorem traverse_carried {related : List Item → List Item → Prop} (carries : Carries related arrange arrange')
    (relists : tree.top.Relists other.top) {node node' : Node} (alike : node.Relists node')
    (formed : node.WellFormed) (formed' : node'.WellFormed) (reachable : Bool) (path : Path) (name : Bytes) :
    related (traverse tree suffix arrange reachable path name node)
      (traverse other suffix arrange' reachable path name node') := by
  induction size : node.size using Nat.strongRecOn generalizing node node' reachable path name with
  | ind bound ih =>
    rcases alike.cases with ⟨rfl, plain⟩ | ⟨access, entries, entries', rfl, rfl⟩
    · cases node with
      | directory access entries => exact absurd rfl plain
      | file access content =>
        rw [traverse, traverse]
        exact carries.short (length_itemsOfFile_le _ _ _ _)
      | fifo access =>
        rw [traverse, traverse]
        exact carries.short (Nat.zero_le 1)
      | link target =>
        have same : itemsOfLink other suffix path name = itemsOfLink tree suffix path name := by
          simp only [itemsOfLink, readFile, FileTree.kind_eq_of_relists relists, FileTree.read_eq_of_relists relists]
        rw [traverse, traverse, same]
        exact carries.short (length_itemsOfLink_le _ _)
    · rw [Node.wellFormed_directory] at formed formed'
      have each := (Node.relists_directory_iff.1 alike).2
      rw [traverse, traverse]
      split
      · refine carries.join (listing_perm formed.1 formed'.1 each) (by rw [map_fst_listing]; exact formed.1) ?_ ?_
        · intro listed member
          obtain ⟨entry, held, rfl⟩ := List.mem_map.1 member
          exact (formed.2 entry held).1
        · intro listed member
          obtain ⟨entry, held, rfl⟩ := List.mem_map.1 member
          -- The other directory may list the entry elsewhere, so it is found by its name.
          obtain ⟨node', held', below⟩ := (each entry.1).exists_of_mem formed.1 held
          have lookup' : (traverseEntries other suffix arrange' access.search path entries').lookup entry.1 =
              some (traverse other suffix arrange' access.search (path.join entry.1) entry.1 node') :=
            lookup_traverseEntries formed'.1 held'
          have smaller : entry.2.size < bound := size ▸ Node.size_lt_of_mem held
          rw [lookup_traverseEntries formed.1 held, lookup', Option.getD_some, Option.getD_some]
          exact ih entry.2.size smaller below (formed.2 entry held).2 (formed'.2 _ held').2 _ _ _ rfl
      · exact carries.short (Nat.le_refl 1)

theorem traversal_carried {related : List Item → List Item → Prop} (carries : Carries related arrange arrange')
    (relists : tree.top.Relists other.top) (root : Path) :
    related (traversal tree suffix arrange root) (traversal other suffix arrange' root) := by
  unfold traversal
  have alike := FileTree.resolve_alike relists root .visitor
  cases reached : tree.resolve .visitor root with
  | error fault =>
    cases reached' : other.resolve .visitor root with
    | error fault' => exact carries.short (Nat.zero_le 1)
    | ok spot' =>
      rw [reached, reached'] at alike
      cases alike
  | ok spot =>
    cases reached' : other.resolve .visitor root with
    | error fault' =>
      rw [reached, reached'] at alike
      cases alike
    | ok spot' =>
      rw [reached, reached'] at alike
      cases alike with
      | ok arrived =>
        exact traverse_carried carries relists arrived.node (FileTree.wellFormed_of_resolve reached).1
          (FileTree.wellFormed_of_resolve reached').1 true root _

/-- Any two ways to arrange siblings carry over that lists have the same items. -/
theorem carries_perm (ordered : ∀ path entries, (arrange path entries).Perm entries)
    (ordered' : ∀ path entries, (arrange' path entries).Perm entries) : Carries List.Perm arrange arrange' where
  short _ := List.Perm.refl _
  join {path entries entries'} relisted _ _ {give give'} each := by
    have arranged : (arrange path entries).Perm (arrange' path entries') :=
      (ordered path entries).trans (relisted.trans (ordered' path entries').symm)
    exact arranged.flatMap fun entry member => each entry ((ordered path entries).mem_iff.1 member)

theorem reverse_of_length_le {α : Type} {items : List α} (short : items.length ≤ 1) : items.reverse = items := by
  match items, short with
  | [], _ => rfl
  | [_], _ => rfl

/-- A total order and the order the other way round carry over that one list is the other backwards. -/
theorem carries_reverse {order order' : SiblingOrder} (total : order.IsTotal) (reverses : order.Reverses order') :
    Carries (fun items items' => items' = items.reverse) order.arrange order'.arrange where
  short short := (reverse_of_length_le short).symm
  join {path entries entries'} relisted distinct named {give give'} each := by
    rw [SiblingOrder.arrange_eq_reverse total reverses relisted distinct named, List.reverse_flatMap]
    refine List.flatMap_congr fun entry member => ?_
    exact each entry ((order.arrange_perm path entries).mem_iff.1 (List.mem_reverse.1 member))

/-- Changing the order of siblings only rearranges the items of a walk, and reversing it reverses them. The trees may
list the entries of their directories in different sequences. -/
theorem items_reordered {tree other : FileTree} (relists : tree.top.Relists other.top) {root : Path} {suffix : Bytes}
    (filled : suffix ≠ []) (directory : tree.kind root = .ok .directory) (order order' : SiblingOrder) :
    ∃ walk walk', start tree root suffix order = .ok walk ∧ start other root suffix order' = .ok walk' ∧
      (walk.items tree).Perm (walk'.items other) ∧
      (order.IsTotal → order.Reverses order' → walk'.items other = (walk.items tree).reverse) := by
  have directory' : other.kind root = .ok .directory := by rw [← FileTree.kind_eq_of_relists relists, directory]
  have started : start tree root suffix order = .ok ⟨suffix, order, [.root root]⟩ :=
    start_eq_ok_iff.2 ⟨filled, directory, rfl⟩
  have started' : start other root suffix order' = .ok ⟨suffix, order', [.root root]⟩ :=
    start_eq_ok_iff.2 ⟨filled, directory', rfl⟩
  refine ⟨_, _, started, started', ?_, fun total reverses => ?_⟩
  · rw [items_of_start started, items_of_start started']
    exact traversal_carried (carries_perm order.arrange_perm order'.arrange_perm) relists root
  · rw [items_of_start started, items_of_start started']
    exact traversal_carried (carries_reverse total reverses) relists root

/-- The order of file names the other way round. -/
def descending : SiblingOrder :=
  .custom fun a b => Bytes.compare (b.fileName?.getD []) (a.fileName?.getD [])

theorem reverses_descending : SiblingOrder.lexicographic.Reverses descending := by
  intro path a b namedA namedB
  have nameA := Path.fileName?_join path (Path.isSegment_of_isName namedA)
  have nameB := Path.fileName?_join path (Path.isSegment_of_isName namedB)
  simp only [descending, SiblingOrder.comparison, nameA, nameB, Option.getD_some]

/-- Two files, one of which nobody may read. -/
def innerFiles : Entries :=
  [(Utf8.encode "b.js", .file ⟨false, false⟩ []), (Utf8.encode "a.js", .file .ofFile (Utf8.encode "1"))]

/-- A link that leads nowhere, and a directory that cannot be listed. -/
def outerEntries : Entries :=
  [(Utf8.encode "z.js", .link (.ofString "missing")),
   (Utf8.encode "c.js", .directory ⟨false, true⟩ [(Utf8.encode "d.js", .file .ofFile [])])]

/-- A directory beside the others, and files in it. -/
def listedTree : FileTree where
  top := .directory .ofDirectory
    [(Utf8.encode "r", .directory .ofDirectory ((Utf8.encode "e", .directory .ofDirectory innerFiles) :: outerEntries))]
  wellFormed := by
    simp only [innerFiles, outerEntries, Node.WellFormed, Node.WellFormedEntries]
    decide

/-- The same tree, listed backwards. -/
def relistedTree : FileTree where
  top := .directory .ofDirectory
    [(Utf8.encode "r", .directory .ofDirectory
      (outerEntries ++ [(Utf8.encode "e", .directory .ofDirectory innerFiles.reverse)]))]
  wellFormed := by
    simp only [innerFiles, outerEntries, List.cons_append, List.nil_append, List.reverse_cons, List.reverse_nil,
      Node.WellFormed, Node.WellFormedEntries]
    decide

theorem relists_relistedTree : listedTree.top.Relists relistedTree.top := by
  have inner : (Node.directory .ofDirectory innerFiles).Relists (.directory .ofDirectory innerFiles.reverse) :=
    Node.relists_of_perm (by decide) (List.reverse_perm innerFiles).symm
  refine Node.relists_cons ?_ (.refl _)
  refine (Node.relists_cons inner (.refl (.directory .ofDirectory outerEntries))).trans ?_
  exact Node.relists_of_perm (by decide) (List.perm_append_singleton _ _).symm

theorem items_reordered_relistedTree :
    listedTree.top.Relists relistedTree.top ∧ Utf8.encode ".js" ≠ [] ∧
      listedTree.kind (.ofString "r") = .ok .directory ∧ SiblingOrder.lexicographic.IsTotal ∧
      SiblingOrder.lexicographic.Reverses descending ∧
      ∃ walk walk', start listedTree (.ofString "r") (Utf8.encode ".js") .lexicographic = .ok walk ∧
        start relistedTree (.ofString "r") (Utf8.encode ".js") descending = .ok walk' ∧
        (walk.items listedTree).Perm (walk'.items relistedTree) ∧
        walk'.items relistedTree =
          [.error (.read (.ofString "r/z.js") (.access .notFound)),
           .error (.read (.ofString "r/e/b.js") (.access .permissionDenied)),
           .ok ⟨.ofString "r/e/a.js", Utf8.encode "a.js", Utf8.encode "1"⟩,
           .error (.read (.ofString "r/c.js") (.opening (.ofString "r/c.js") .permissionDenied))] := by
  have total : SiblingOrder.lexicographic.IsTotal := trivial
  have directory : listedTree.kind (.ofString "r") = .ok .directory := by decide
  obtain ⟨walk, walk', started, started', permuted, reversed⟩ :=
    items_reordered relists_relistedTree (by decide : Utf8.encode ".js" ≠ []) directory .lexicographic descending
  refine ⟨relists_relistedTree, by decide, directory, total, reverses_descending, walk, walk', started, started',
    permuted, ?_⟩
  rw [reversed total reverses_descending, items_of_start started, traversal_congr (agree_sorted total)]
  decide +kernel

end BundleServer.Walk
