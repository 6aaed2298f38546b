import BundleServer.Proofs.Bundle.Outcome
import BundleServer.Proofs.Bundle.Passes
import BundleServer.Proofs.Walk.Ascent
import BundleServer.Proofs.Walk.Files

/-!
# The concatenated bundle as a sequence

In lexicographic order a concatenated bundle is the sequence of the blocks of all files that an open directory offers,
sorted by the names that lead to them. The names are compared one by one, so a directory `a` stands in front of a file
`a.js` beside it, although the path of the file is the lesser string of bytes. A directory offers its files in one such
sequence only (`Enumerates.unique`), and the walk finds it.
-/

namespace BundleServer

open FileTree (Access Node)

/-- The files that a node offers, each once, in ascending order of the names that lead to them. -/
structure FileTree.Node.Enumerates (node : Node) (root : Path) (suffix : Bytes)
    (files : List (List Bytes × Fragment)) : Prop where
  ascending : files.Pairwise fun first second => List.compareLex Bytes.compare first.1 second.1 = .lt
  complete : ∀ names fragment, (names, fragment) ∈ files ↔ ∃ access, node.Offers root suffix names access fragment

section Files

variable {node : Node} {root : Path} {suffix : Bytes} {names : List Bytes} {access : Access} {fragment : Fragment}

/-- A node offers its files in one ascending sequence only. -/
theorem FileTree.Node.Enumerates.unique {files others : List (List Bytes × Fragment)}
    (enumerates : node.Enumerates root suffix files) (enumerates' : node.Enumerates root suffix others) :
    files = others := by
  refine eq_of_mem_iff_of_pairwise_lt Prod.fst enumerates.ascending enumerates'.ascending fun ⟨names, fragment⟩ => ?_
  rw [enumerates.complete, enumerates'.complete]

/-- The place of a file that is offered is given by the names that lead to it. -/
theorem FileTree.Node.Offers.place_eq (offers : node.Offers root suffix names access fragment)
    (formed : node.WellFormed) (filled : root.bytes ≠ []) : root.place fragment.path = names := by
  rw [offers.placed, ((Path.standsBelow_self filled).foldl_join (Node.isName_of_at? formed offers.held)).2,
    Path.place_self, List.nil_append]

/-- The name of a file that is offered is its key with the suffix. -/
theorem FileTree.Node.Offers.name_eq (offers : node.Offers root suffix names access fragment)
    (formed : node.WellFormed) (filled : root.bytes ≠ []) (whole : Path.separator ∉ suffix) :
    fragment.name = fragment.key suffix ++ suffix := by
  obtain ⟨front, rfl⟩ := List.getLast?_eq_some_iff.1 offers.named
  have named := Node.isName_of_at? formed offers.held
  have above := (Path.standsBelow_self filled).foldl_join fun name member => named name (List.mem_append_left _ member)
  have ends : suffix <:+ fragment.path.bytes := List.isSuffixOf_iff_suffix.1 offers.selected
  rw [offers.placed, List.foldl_append] at ends
  obtain ⟨-, -, -, plain, -⟩ := FileTree.isName_iff.1 (named fragment.name (by simp))
  obtain ⟨stem, same⟩ := Path.suffix_of_suffix_join above.1.filled plain whole ends
  rw [Fragment.key, ← same, Fragment.keyOf_append]

end Files

namespace Concatenation

variable {items : List Item}

theorem mem_fragments_iff {fragment : Fragment} : fragment ∈ fragments items ↔ .ok fragment ∈ items := by
  rw [fragments, List.mem_filterMap]
  constructor
  · rintro ⟨item, member, taken⟩
    cases item with
    | ok own =>
      cases taken
      exact member
    | error error => cases taken
  · intro member
    exact ⟨.ok fragment, member, rfl⟩

/-- Items without errors are their fragments. -/
theorem map_ok_fragments (sound : ∀ item ∈ items, ∃ fragment, item = .ok fragment) :
    (fragments items).map .ok = items := by
  induction items with
  | nil => rfl
  | cons item items ih =>
    obtain ⟨⟨fragment, rfl⟩, rest⟩ := List.forall_mem_cons.1 sound
    exact congrArg (.ok fragment :: ·) (ih rest)

theorem errorsOf_eq_nil (sound : ∀ item ∈ items, ∃ fragment, item = .ok fragment) : errorsOf items = [] := by
  rw [errorsOf, List.filterMap_eq_nil_iff]
  intro item member
  obtain ⟨fragment, rfl⟩ := sound item member
  rfl

end Concatenation

section Walking

variable {tree : FileTree} {root : Path} {node : Node} {suffix : Bytes} (opens : tree.Opens root node)
  (readable : node.IsReadable root suffix) {order : SiblingOrder} {walk : Walk}

include opens readable

theorem Walk.exists_of_mem_items (started : Walk.start tree root suffix order = .ok walk) :
    ∀ item ∈ walk.items tree, ∃ fragment, item = .ok fragment := by
  intro item member
  obtain ⟨names, access, fragment, -, same⟩ := (Walk.mem_items_iff_of_readable opens readable started).1 member
  exact ⟨fragment, same⟩

/-- The fragments of a walk are the files that can be read. -/
theorem Walk.mem_fragments_iff (started : Walk.start tree root suffix order = .ok walk) {fragment : Fragment} :
    fragment ∈ Concatenation.fragments (walk.items tree) ↔
      ∃ names access, node.Offers root suffix names access fragment := by
  rw [Concatenation.mem_fragments_iff, Walk.mem_items_iff_of_readable opens readable started]
  constructor
  · rintro ⟨names, access, other, offers, same⟩
    cases same
    exact ⟨names, access, offers⟩
  · rintro ⟨names, access, offers⟩
    exact ⟨names, access, fragment, offers, rfl⟩

/-- A walk in lexicographic order finds the sequence of the files that can be read. -/
theorem Walk.enumerates_fragments (started : Walk.start tree root suffix .lexicographic = .ok walk) :
    node.Enumerates root suffix
      ((Concatenation.fragments (walk.items tree)).map fun fragment => (root.place fragment.path, fragment)) := by
  have placed {names : List Bytes} {access : Access} {fragment : Fragment}
      (offers : node.Offers root suffix names access fragment) : root.place fragment.path = names :=
    offers.place_eq opens.wellFormed (Walk.filled_of_directory opens.kind_eq)
  constructor
  · have apart := (Walk.ascending_items started).apart
    rw [← Concatenation.map_ok_fragments (Walk.exists_of_mem_items opens readable started), List.map_map,
      List.pairwise_map] at apart
    rw [List.pairwise_map]
    exact apart.imp Apart.compareLex_eq_lt
  · intro names fragment
    rw [List.mem_map]
    constructor
    · rintro ⟨own, member, same⟩
      cases same
      obtain ⟨names, access, offers⟩ := (Walk.mem_fragments_iff opens readable started).1 member
      exact ⟨access, (placed offers).symm ▸ offers⟩
    · rintro ⟨access, offers⟩
      refine ⟨fragment, (Walk.mem_fragments_iff opens readable started).2 ⟨names, access, offers⟩, ?_⟩
      rw [placed offers]

end Walking

namespace Composer

open Concatenation (newline)

/-- In lexicographic order a concatenated bundle over an open directory whose files can be read is the sequence of the
blocks of these files, ascending by the names that lead to them. In a block the content stands as it is between the
markers of the key, which is the name of the file without the suffix. There are no errors. -/
theorem composeRoot_of_readable (composer : Composer) (ordered : composer.order = .lexicographic) {kind : Kind}
    {markers : Markers} (concatenated : kind.composition = .concatenate markers) {tree : FileTree} {root : Path}
    {node : Node} (opens : tree.Opens root node) (readable : node.IsReadable root (Utf8.encode kind.suffix)) :
    ∃ files : List (List Bytes × Fragment), node.Enumerates root (Utf8.encode kind.suffix) files ∧
      (∀ file ∈ files, file.2.name = file.2.key (Utf8.encode kind.suffix) ++ Utf8.encode kind.suffix) ∧
      (composer.composeRoot tree root kind).result = .ok
        { kind
          body := files.flatMap fun file =>
            markers.renderOpening (file.2.key (Utf8.encode kind.suffix)) ++ newline :: file.2.content ++
              markers.renderClosing (file.2.key (Utf8.encode kind.suffix)) ++ [newline, newline]
          errors := [] } := by
  have started : Walk.start tree root (Utf8.encode kind.suffix) .lexicographic =
      .ok ⟨Utf8.encode kind.suffix, .lexicographic, [.root root]⟩ :=
    Walk.start_eq_ok_iff.2 ⟨kind.suffix_ne_nil, opens.kind_eq, rfl⟩
  have enumerates := Walk.enumerates_fragments opens readable started
  refine ⟨_, enumerates, ?_, ?_⟩
  · rintro ⟨names, fragment⟩ member
    obtain ⟨access, offers⟩ := (enumerates.complete names fragment).1 member
    exact offers.name_eq opens.wellFormed (Walk.filled_of_directory opens.kind_eq) kind.separator_not_mem_suffix
  · rw [composer.composeRoot_of_directory opens.kind_eq kind, ordered, ← Walk.items_of_start started,
      composeItems_of_concatenate concatenated,
      Concatenation.errorsOf_eq_nil (Walk.exists_of_mem_items opens readable started), List.flatMap_map]
    rfl

/-- A directory beside a file whose path is less than those of the files in it, another directory that is named as a
fragment, a file that nobody may read but that is no fragment, and a fifo that is named as one. -/
def siblingNode : Node :=
  .directory .ofDirectory
    [(Utf8.encode "b.js", .directory .ofDirectory
        [(Utf8.encode "c.css", .file ⟨false, false⟩ []), (Utf8.encode "c.js", .file .ofFile (Utf8.encode "3"))]),
     (Utf8.encode "a.js", .file .ofFile (Utf8.encode "2")),
     (Utf8.encode "a", .directory .ofDirectory
        [(Utf8.encode "p.js", .fifo .ofFile), (Utf8.encode "x.js", .file .ofFile (Utf8.encode "1"))])]

def siblingTree : FileTree where
  top := .directory .ofDirectory [(Utf8.encode "r", siblingNode)]
  wellFormed := by
    simp only [siblingNode, Node.WellFormed, Node.WellFormedEntries]
    decide

theorem composeRoot_of_readable_siblingTree :
    let composer : Composer := ⟨.single (.ofString "r"), .lexicographic⟩
    siblingTree.Opens (.ofString "r") siblingNode ∧
      siblingNode.IsReadable (.ofString "r") (Utf8.encode Kind.script.suffix) ∧
      ∃ files, siblingNode.Enumerates (.ofString "r") (Utf8.encode Kind.script.suffix) files ∧
        files.map Prod.fst = [[Utf8.encode "a", Utf8.encode "x.js"], [Utf8.encode "a.js"],
          [Utf8.encode "b.js", Utf8.encode "c.js"]] ∧
        (composer.composeRoot siblingTree (.ofString "r") .script).result = .ok ⟨.script,
          Utf8.encode "/* x.js */\n1/* x.js */\n\n/* a.js */\n2/* a.js */\n\n/* c.js */\n3/* c.js */\n\n", []⟩ := by
  intro composer
  have opens : siblingTree.Opens (.ofString "r") siblingNode :=
    ⟨rfl, ⟨_, rfl⟩, rfl, Node.isOpen_of_descendants (by decide)⟩
  have readable : siblingNode.IsReadable (.ofString "r") (Utf8.encode Kind.script.suffix) :=
    Node.isReadable_of_descendants (by decide)
  have started : Walk.start siblingTree (.ofString "r") (Utf8.encode Kind.script.suffix) .lexicographic =
      .ok ⟨Utf8.encode Kind.script.suffix, .lexicographic, [.root (.ofString "r")]⟩ := rfl
  have total : SiblingOrder.lexicographic.IsTotal := trivial
  obtain ⟨files, enumerates, -, result⟩ := composeRoot_of_readable composer rfl rfl opens readable
  have same := enumerates.unique (Walk.enumerates_fragments opens readable started)
  rw [Walk.items_of_start started, Walk.traversal_congr (Walk.agree_sorted total)] at same
  subst same
  refine ⟨opens, readable, _, enumerates, ?_, result.trans ?_⟩
  · decide +kernel
  · decide +kernel

end Composer

end BundleServer
