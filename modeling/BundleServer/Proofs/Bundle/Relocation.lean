import BundleServer.Proofs.Bundle.Outcome
import BundleServer.Proofs.Bundle.Passes
import BundleServer.Proofs.FileTree.Standing
import BundleServer.Proofs.Walk.Session
import Mathlib.Data.List.Forall2

/-!
# The same directory under another path

A directory can be reached by many paths, through links or with doubled separators. A walk from each of them goes down
the same nodes, and since links are not followed below the root, all that differs are the paths that it shows: each is
that of the root with the same names joined to it (`traverse_moved`). A fragment counts by its name and its content. So
the bundles are the same, and the errors differ in the paths alone (`composeRoot_moved`).
-/

namespace BundleServer

open FileTree (Entries Node)

/-- Is the second error the first one at the same names below another root? -/
inductive FragmentError.Moved (root root' : Path) : FragmentError → FragmentError → Prop where
  | access (names : List Bytes) (fault : FileTree.Fault) :
    Moved root root' (.read (names.foldl Path.join root) (.access fault))
      (.read (names.foldl Path.join root') (.access fault))
  | opening (names : List Bytes) (fault : FileTree.Fault) :
    Moved root root' (.read (names.foldl Path.join root) (.opening (names.foldl Path.join root) fault))
      (.read (names.foldl Path.join root') (.opening (names.foldl Path.join root') fault))
  | parse (names : List Bytes) (error : Json.SyntaxError) :
    Moved root root' (.parse (names.foldl Path.join root) error) (.parse (names.foldl Path.join root') error)

/-- Is the second item the first one at the same names below another root? A fragment keeps its name and its content. -/
inductive Item.Moved (root root' : Path) : Item → Item → Prop where
  | ok (names : List Bytes) (name content : Bytes) :
    Moved root root' (.ok ⟨names.foldl Path.join root, name, content⟩)
      (.ok ⟨names.foldl Path.join root', name, content⟩)
  | error {error error' : FragmentError} (moved : error.Moved root root' error') :
    Moved root root' (.error error) (.error error')

section Moving

variable {root root' : Path} {name : Bytes}

theorem FragmentError.Moved.of_join {error error' : FragmentError}
    (moved : error.Moved (root.join name) (root'.join name) error') : error.Moved root root' error' := by
  cases moved with
  | access names fault => exact .access (name :: names) fault
  | opening names fault => exact .opening (name :: names) fault
  | parse names error => exact .parse (name :: names) error

/-- What is moved with an entry is moved with the directory that holds it. -/
theorem Item.Moved.of_join {item item' : Item} (moved : Item.Moved (root.join name) (root'.join name) item item') :
    Item.Moved root root' item item' := by
  cases moved with
  | ok names own content => exact .ok (name :: names) own content
  | error moved => exact .error moved.of_join

end Moving

namespace Walk

variable {tree : FileTree} {suffix : Bytes}

/-- Lists that correspond for each element correspond one behind the other. -/
theorem forall₂_flatMap {α β : Type} {related : β → β → Prop} {list : List α} {give give' : α → List β}
    (each : ∀ a ∈ list, List.Forall₂ related (give a) (give' a)) :
    List.Forall₂ related (list.flatMap give) (list.flatMap give') := by
  induction list with
  | nil => exact .nil
  | cons a list ih =>
    obtain ⟨first, others⟩ := List.forall_mem_cons.1 each
    rw [List.flatMap_cons, List.flatMap_cons]
    exact List.rel_append first (ih others)

/-- The items below a node without links, under two paths. What a directory is called does not matter; a file has to
be called the same, and be selected by both paths or by none. The induction is on the size of the node. -/
theorem traverse_moved (whole : Path.separator ∉ suffix) {node : Node} (formed : node.WellFormed)
    (free : node.linkFree = true) (reachable : Bool) {path path' : Path} (filled : path.bytes ≠ [])
    (filled' : path'.bytes ≠ []) {name name' : Bytes}
    (called : node.kind = .directory ∨ name = name' ∧ selects suffix path = selects suffix path') :
    List.Forall₂ (Item.Moved path path')
      (traverse tree suffix SiblingOrder.lexicographic.arrange reachable path name node)
      (traverse tree suffix SiblingOrder.lexicographic.arrange reachable path' name' node) := by
  induction size : node.size using Nat.strongRecOn generalizing node reachable path path' name name' with
  | ind bound ih =>
    cases node with
    | link target => cases free
    | fifo access =>
      rw [traverse, traverse]
      exact .nil
    | file access content =>
      obtain ⟨rfl, alike⟩ := called.resolve_left (fun directory => by cases directory)
      rw [traverse, traverse, itemsOfFile, itemsOfFile, alike]
      split
      · split
        · exact .cons (.ok [] name content) .nil
        · exact .cons (.error (.access [] .permissionDenied)) .nil
      · exact .nil
    | directory access entries =>
      rw [Node.wellFormed_directory] at formed
      rw [traverse, traverse]
      split
      · refine forall₂_flatMap fun listed among => ?_
        obtain ⟨entry, held, rfl⟩ : ∃ entry ∈ entries, (entry.1, entry.2.kind) = listed :=
          List.mem_map.1 ((SiblingOrder.arrange_perm _ path _).mem_iff.1 among)
        obtain ⟨named, inner⟩ := formed.2 entry held
        obtain ⟨nameFilled, -, -, plain, -⟩ := FileTree.isName_iff.1 named
        have smaller : entry.2.size < bound := size ▸ Node.size_lt_of_mem held
        have alike : selects suffix (path.join entry.1) = selects suffix (path'.join entry.1) := by
          rw [selects_join filled plain whole, selects_join filled' plain whole]
        rw [lookup_traverseEntries formed.1 held, lookup_traverseEntries formed.1 held, Option.getD_some,
          Option.getD_some]
        exact (ih entry.2.size smaller inner (Node.linkFree_of_mem free held) access.search
          (path.join_ne_nil nameFilled) (path'.join_ne_nil nameFilled) (.inr ⟨rfl, alike⟩) rfl).imp
            fun _ _ moved => moved.of_join
      · exact .cons (.error (.opening [] .permissionDenied)) .nil

end Walk

section Composing

variable {root root' : Path} {items items' : List Item}

theorem Merge.member?_of_moved (suffix : Bytes) {item item' : Item} (moved : Item.Moved root root' item item') :
    member? suffix item = member? suffix item' := by
  cases moved with
  | ok names name content =>
    simp only [member?, readValue, bind, Except.bind]
    cases Json.parse content <;> rfl
  | error moved => rfl

theorem Merge.body_of_moved (suffix : Bytes) (moved : List.Forall₂ (Item.Moved root root') items items') :
    (ofItems suffix items).body = (ofItems suffix items').body := by
  have members : items.filterMap (member? suffix) = items'.filterMap (member? suffix) := by
    induction moved with
    | nil => rfl
    | cons first rest ih => rw [List.filterMap_cons, List.filterMap_cons, member?_of_moved suffix first, ih]
  rw [body, body, members_ofItems, members_ofItems, members]

theorem Concatenation.body_of_moved (suffix : Bytes) (markers : Markers)
    (moved : List.Forall₂ (Item.Moved root root') items items') :
    (ofItems suffix markers items).body = (ofItems suffix markers items').body := by
  induction moved with
  | nil => rfl
  | cons first rest ih =>
    cases first with
    | ok names name content =>
      rw [body_ofItems_cons, body_ofItems_cons, ih]
      rfl
    | error moved => rw [body_ofItems_cons_error, body_ofItems_cons_error, ih]

/-- A moved item adds the moved error, if it adds one. -/
theorem Composition.error?_of_moved (composition : Composition) {item item' : Item}
    (moved : Item.Moved root root' item item') :
    Option.Rel (FragmentError.Moved root root') (composition.error? item) (composition.error? item') := by
  cases composition with
  | merge =>
    cases moved with
    | ok names name content =>
      simp only [error?, Merge.error?, Merge.readValue, bind, Except.bind]
      cases Json.parse content with
      | ok value => exact .none
      | error error => exact .some (.parse names error)
    | error moved => exact .some moved
  | concatenate markers =>
    cases moved with
    | ok names name content => exact .none
    | error moved => exact .some moved

namespace Composer

variable {kind : Kind}

theorem body_composeItems_of_moved (moved : List.Forall₂ (Item.Moved root root') items items') :
    (composeItems kind root items).result.body = (composeItems kind root' items').result.body := by
  cases composition : kind.composition with
  | merge =>
    rw [body_composeItems_of_merge composition, body_composeItems_of_merge composition, Merge.body_of_moved _ moved]
  | concatenate markers =>
    rw [body_composeItems_of_concatenate composition, body_composeItems_of_concatenate composition,
      Concatenation.body_of_moved _ markers moved]

/-- Passes over the same directory, by whatever paths it is reached, succeed with the same body. Their errors correspond
one to one in their order, and differ in what stands for the root in the paths. Below the directory there may be no
link, but the paths may lead through links. -/
theorem composeRoot_moved (composer : Composer) (ordered : composer.order = .lexicographic) {tree : FileTree}
    {spot spot' : FileTree.Spot} (reached : tree.resolve .visitor root = .ok spot)
    (reached' : tree.resolve .visitor root' = .ok spot') (same : spot'.node = spot.node)
    (directory : spot.node.kind = .directory) (free : spot.node.linkFree = true) (kind : Kind) :
    ∃ bundle bundle', (composer.composeRoot tree root kind).result = .ok bundle ∧
      (composer.composeRoot tree root' kind).result = .ok bundle' ∧ bundle.body = bundle'.body ∧
      List.Forall₂ (FragmentError.Moved root root') bundle.errors bundle'.errors := by
  obtain ⟨-, filled, -⟩ := FileTree.resolve_eq_ok_iff.1 reached
  obtain ⟨-, filled', -⟩ := FileTree.resolve_eq_ok_iff.1 reached'
  have walked : tree.kind root = .ok .directory := by
    rw [FileTree.kind, reached, Except.map, directory]
  have walked' : tree.kind root' = .ok .directory := by
    rw [FileTree.kind, reached', Except.map, same, directory]
  have moved : List.Forall₂ (Item.Moved root root')
      (Walk.traversal tree (Utf8.encode kind.suffix) composer.order.arrange root)
      (Walk.traversal tree (Utf8.encode kind.suffix) composer.order.arrange root') := by
    rw [Walk.traversal, Walk.traversal, reached, reached', ordered]
    simp only [same]
    exact Walk.traverse_moved kind.separator_not_mem_suffix (FileTree.wellFormed_of_resolve reached).1 free true filled
      filled' (.inl directory)
  refine ⟨_, _, composer.composeRoot_of_directory walked kind, composer.composeRoot_of_directory walked' kind,
    body_composeItems_of_moved moved, ?_⟩
  rw [errors_composeItems, errors_composeItems]
  exact List.rel_filterMap (fun _ _ moved => kind.composition.error?_of_moved moved) moved

/-- A fragment, one that is malformed, and a directory that nobody may list. -/
def faultyNode : Node :=
  .directory .ofDirectory
    [(Utf8.encode "x", .directory ⟨false, false⟩ []), (Utf8.encode "b.json", .file .ofFile (Utf8.encode "\x7b")),
     (Utf8.encode "a.json", .file .ofFile (Utf8.encode "1"))]

/-- A directory with a link to it. -/
def linkedTree : FileTree where
  top := .directory .ofDirectory [(Utf8.encode "door", .link (.ofString "./r")), (Utf8.encode "r", faultyNode)]
  wellFormed := by
    simp only [faultyNode, Node.WellFormed, FileTree.Node.WellFormedEntries]
    decide

/-- Through the link, and by a path with doubled separators and a dot in it. -/
theorem composeRoot_moved_linkedTree :
    let composer : Composer := ⟨.single (.ofString "r"), .lexicographic⟩
    ∃ bundle bundle', (composer.composeRoot linkedTree (.ofString ".//r//") .json).result = .ok bundle ∧
      (composer.composeRoot linkedTree (.ofString "door") .json).result = .ok bundle' ∧
      bundle.body = bundle'.body ∧
      List.Forall₂ (FragmentError.Moved (.ofString ".//r//") (.ofString "door")) bundle.errors bundle'.errors ∧
      bundle.errors.map FragmentError.path = [.ofString ".//r//b.json", .ofString ".//r//x"] ∧
      bundle'.errors.map FragmentError.path = [.ofString "door/b.json", .ofString "door/x"] := by
  intro composer
  have total : composer.order.IsTotal := trivial
  have reached : linkedTree.resolve .visitor (.ofString ".//r//") = .ok ⟨faultyNode,
      [(Utf8.encode "r", linkedTree.top), ([], FileTree.surroundings)]⟩ := rfl
  have reached' : linkedTree.resolve .visitor (.ofString "door") = .ok ⟨faultyNode,
      [(Utf8.encode "r", linkedTree.top), ([], FileTree.surroundings)]⟩ := rfl
  obtain ⟨bundle, bundle', first, second, body, moved⟩ :=
    composer.composeRoot_moved rfl reached reached' rfl rfl rfl .json
  refine ⟨bundle, bundle', first, second, body, moved, ?_, ?_⟩
  · rw [composer.composeRoot_of_directory (by decide +kernel) .json,
      Walk.traversal_congr (Walk.agree_sorted total)] at first
    cases first
    decide +kernel
  · rw [composer.composeRoot_of_directory (by decide +kernel) .json,
      Walk.traversal_congr (Walk.agree_sorted total)] at second
    cases second
    decide +kernel

end Composer

end Composing

end BundleServer
