import BundleServer.Proofs.Bundle.Scope
import BundleServer.Proofs.Bundle.Sequence
import BundleServer.Proofs.FileTree.Pruning
import BundleServer.Proofs.Order

/-!
# Files that a bundle does not show

A bundle is composed of the regular files whose names end with the suffix of its kind. Any other file is pruned from
the tree before it could count: the plain recursion gives the same items below a pruned node (`traverse_pruned`), since
leaving out entries and sorting the rest is the same in either sequence. So nothing that happens to such a file shows in
the bundle, in its errors or in what is logged. No suffix of a kind is the end of another one, and thus each file counts
for one kind at most (`composeRoot_of_unselected`).
-/

namespace BundleServer

open FileTree (Access Entries Node)

namespace SiblingOrder

/-- Entries may be left out before they are sorted, or after. -/
theorem arrange_filter {path : Path} {entries : List (Bytes × FileTree.Kind)}
    (distinct : (entries.map Prod.fst).Nodup) (keep : Bytes × FileTree.Kind → Bool) :
    arrange .lexicographic path (entries.filter keep) = (arrange .lexicographic path entries).filter keep := by
  have ascending {listed : List (Bytes × FileTree.Kind)} (different : (listed.map Prod.fst).Nodup) :
      (arrange .lexicographic path listed).Pairwise fun a b => Bytes.compare a.1 b.1 = .lt :=
    List.pairwise_map.1 (pairwise_arrange_lexicographic different)
  refine eq_of_mem_iff_of_pairwise_lt Prod.fst (ascending ?_) ((ascending distinct).filter keep) fun entry => ?_
  · exact distinct.sublist (List.filter_sublist.map _)
  · rw [(arrange_perm .lexicographic path _).mem_iff, List.mem_filter, List.mem_filter,
      (arrange_perm .lexicographic path entries).mem_iff]

end SiblingOrder

namespace Walk

/-- What gives nothing may be left out. -/
theorem flatMap_filter_eq {α β : Type} {list : List α} {keep : α → Bool} {give give' : α → List β}
    (kept : ∀ a ∈ list, keep a = true → give' a = give a) (dropped : ∀ a ∈ list, keep a = false → give a = []) :
    (list.filter keep).flatMap give' = list.flatMap give := by
  induction list with
  | nil => rfl
  | cons a list ih =>
    obtain ⟨first, others⟩ := List.forall_mem_cons.1 kept
    obtain ⟨first', others'⟩ := List.forall_mem_cons.1 dropped
    rw [List.flatMap_cons]
    cases keeps : keep a with
    | true => rw [List.filter_cons_of_pos keeps, List.flatMap_cons, first keeps, ih others others']
    | false => rw [List.filter_cons_of_neg (by simp [keeps]), first' keeps, List.nil_append, ih others others']

variable {tree : FileTree} {suffix : Bytes}

theorem listing_prunedEntries (entries : Entries) :
    listing (Node.prunedEntries suffix entries) =
      (listing entries).filter fun entry => Node.isSeen suffix entry.1 entry.2 := by
  induction entries with
  | nil => rfl
  | cons entry rest ih =>
    obtain ⟨name, node⟩ := entry
    unfold listing at ih ⊢
    rw [List.map_cons, List.filter_cons]
    cases seen : Node.isSeen suffix name node.kind with
    | true => simp only [Node.prunedEntries_cons_of_seen seen, List.map_cons, ih, Node.kind_pruned, if_true]
    | false => simp only [Node.prunedEntries_cons_of_unseen seen, ih, Bool.false_eq_true, if_false]

theorem mem_prunedEntries {entries : Entries} {entry : Bytes × Node} (held : entry ∈ entries)
    (seen : Node.isSeen suffix entry.1 entry.2.kind = true) :
    (entry.1, entry.2.pruned suffix) ∈ Node.prunedEntries suffix entries := by
  induction entries with
  | nil => cases held
  | cons head rest ih =>
    obtain ⟨name, node⟩ := head
    rcases List.mem_cons.1 held with rfl | later
    · rw [Node.prunedEntries_cons_of_seen seen]
      exact List.mem_cons_self
    · rw [Node.prunedEntries]
      split
      · exact List.mem_cons_of_mem _ (ih later)
      · exact ih later

/-- A walk gives the same items below a node and below what is seen of it. The induction is on the size of the node. -/
theorem traverse_pruned (whole : Path.separator ∉ suffix) {node : Node} (formed : node.WellFormed) (reachable : Bool)
    {path : Path} (filled : path.bytes ≠ []) (name : Bytes) :
    traverse tree suffix SiblingOrder.lexicographic.arrange reachable path name (node.pruned suffix) =
      traverse tree suffix SiblingOrder.lexicographic.arrange reachable path name node := by
  induction size : node.size using Nat.strongRecOn generalizing node reachable path name with
  | ind bound ih =>
    cases node with
    | directory access entries =>
      rw [Node.wellFormed_directory] at formed
      rw [Node.pruned, traverse, traverse]
      split
      · have distinct : ((listing entries).map Prod.fst).Nodup := by
          rw [map_fst_listing]
          exact formed.1
        have distinct' : ((Node.prunedEntries suffix entries).map Prod.fst).Nodup := by
          rw [← map_fst_listing, listing_prunedEntries]
          exact distinct.sublist (List.filter_sublist.map _)
        rw [listing_prunedEntries, SiblingOrder.arrange_filter distinct]
        have member {listed : Bytes × FileTree.Kind}
            (among : listed ∈ SiblingOrder.lexicographic.arrange path (listing entries)) :
            ∃ entry ∈ entries, (entry.1, entry.2.kind) = listed :=
          List.mem_map.1 ((SiblingOrder.arrange_perm _ path _).mem_iff.1 among)
        apply flatMap_filter_eq
        · intro listed among seen
          obtain ⟨entry, held, rfl⟩ := member among
          have lookup' : (traverseEntries tree suffix SiblingOrder.lexicographic.arrange access.search path
              (Node.prunedEntries suffix entries)).lookup entry.1 =
              some (traverse tree suffix SiblingOrder.lexicographic.arrange access.search (path.join entry.1) entry.1
                (entry.2.pruned suffix)) :=
            lookup_traverseEntries distinct' (mem_prunedEntries held seen)
          have named := (formed.2 entry held).1
          have smaller : entry.2.size < bound := size ▸ Node.size_lt_of_mem held
          rw [lookup', lookup_traverseEntries formed.1 held, Option.getD_some, Option.getD_some]
          exact ih entry.2.size smaller (formed.2 entry held).2 _ (path.join_ne_nil (FileTree.isName_iff.1 named).1) _
            rfl
        · intro listed among unseen
          obtain ⟨entry, held, rfl⟩ := member among
          rw [lookup_traverseEntries formed.1 held, Option.getD_some]
          obtain ⟨name, node⟩ := entry
          simp only [Node.isSeen, Bool.or_eq_false_iff, decide_eq_false_iff_not, not_not] at unseen
          obtain ⟨file, ends⟩ := unseen
          have plain := (FileTree.isName_iff.1 (formed.2 _ held).1).2.2.2.1
          cases node with
          | file access content =>
            rw [traverse, itemsOfFile, selects_join filled plain whole, ends]
            rfl
          | _ => cases file
      · rfl
    | _ => rw [Node.pruned]

mutual

/-- Every fragment of a walk has a path that ends with the suffix. -/
theorem selects_of_mem_traverse {arrange : Path → List (Bytes × FileTree.Kind) → List (Bytes × FileTree.Kind)}
    (reachable : Bool) (path : Path) (name : Bytes) (node : Node) {fragment : Fragment}
    (member : .ok fragment ∈ traverse tree suffix arrange reachable path name node) :
    selects suffix fragment.path = true := by
  cases node with
  | file access content =>
    rw [traverse, itemsOfFile] at member
    split at member
    · rename_i selected
      rw [List.mem_singleton] at member
      split at member
      · cases member
        exact selected
      · cases member
    · cases member
  | directory access entries =>
    rw [traverse] at member
    split at member
    · obtain ⟨listed, -, inside⟩ := List.mem_flatMap.1 member
      exact selects_of_mem_traverseEntries access.search path entries listed.1 inside
    · rw [List.mem_singleton] at member
      cases member
  | link target =>
    rw [traverse, itemsOfLink] at member
    split at member
    · rename_i selected
      split at member
      · rw [readFile] at member
        split at member
        · cases List.mem_singleton.1 member
          exact selected
        · cases List.mem_singleton.1 member
        · cases member
      · cases member
      · rw [List.mem_singleton] at member
        cases member
    · cases member
  | fifo access =>
    rw [traverse] at member
    cases member

theorem selects_of_mem_traverseEntries
    {arrange : Path → List (Bytes × FileTree.Kind) → List (Bytes × FileTree.Kind)}
    (reachable : Bool) (path : Path) (entries : List (Bytes × Node)) (wanted : Bytes) {fragment : Fragment}
    (member : .ok fragment ∈ ((traverseEntries tree suffix arrange reachable path entries).lookup wanted).getD []) :
    selects suffix fragment.path = true := by
  match entries with
  | [] => cases member
  | (name, node) :: rest =>
    rw [traverseEntries, List.lookup_cons] at member
    split at member
    · exact selects_of_mem_traverse reachable (path.join name) name node member
    · exact selects_of_mem_traverseEntries reachable path rest wanted member

end

end Walk

/-- No suffix of a kind is the end of another one. -/
theorem Kind.eq_of_selects {kind other : Kind} {path : Path}
    (selected : Walk.selects (Utf8.encode kind.suffix) path = true)
    (selected' : Walk.selects (Utf8.encode other.suffix) path = true) : kind = other := by
  rw [Walk.selects, List.isSuffixOf_iff_suffix] at selected selected'
  have apart : ∀ kind other : Kind, Utf8.encode kind.suffix <:+ Utf8.encode other.suffix → kind = other := by
    intro kind other
    cases kind <;> cases other <;> decide
  rcases List.suffix_or_suffix_of_suffix selected selected' with ends | ends
  · exact apart kind other ends
  · exact (apart other kind ends).symm

section Composing

open FileTree (Change Spot)

variable {composer : Composer} {tree other : FileTree} {root : Path}

/-- The pass over a directory shows no more of a tree without links than what is seen of it. -/
theorem Composer.composeRoot_of_pruned_eq (ordered : composer.order = .lexicographic)
    (free : tree.top.linkFree = true) {kind : Kind}
    (same : tree.top.pruned (Utf8.encode kind.suffix) = other.top.pruned (Utf8.encode kind.suffix)) {spot : Spot}
    (reached : tree.resolve .owner root = .ok spot) (directory : spot.node.kind = .directory) :
    composer.composeRoot other root kind = composer.composeRoot tree root kind := by
  have free' : other.top.linkFree = true := by
    rw [← FileTree.Node.linkFree_pruned, ← same, FileTree.Node.linkFree_pruned, free]
  obtain ⟨spot', reached', alike⟩ := FileTree.resolve_of_pruned_eq free same reached directory
  have directory' : spot'.node.kind = .directory := Spot.kind_eq_of_pruned_eq alike ▸ directory
  cases visited : tree.resolve .visitor root with
  | error fault =>
    -- The visitor is refused, since the owner is not. In the other tree nobody else can be refused.
    have refused : tree.resolve .visitor root = .error .permissionDenied := by
      rcases tree.resolve_visitor_cases root with owner | refused
      · rw [owner, reached] at visited
        cases visited
      · exact refused
    have refused' : other.resolve .visitor root = .error .permissionDenied := by
      rcases other.resolve_visitor_cases root with owner | refused'
      · obtain ⟨again, found, -⟩ := FileTree.resolve_of_pruned_eq free' same.symm (owner.trans reached') directory'
        rw [refused] at found
        cases found
      · exact refused'
    apply composeRoot_congr
    · rw [FileTree.kind, FileTree.kind, refused, refused']
    · rw [Walk.traversal, Walk.traversal, refused, refused']
  | ok found =>
    have owned := FileTree.resolve_owner visited
    rw [reached] at owned
    cases owned
    obtain ⟨found', visited', nodes⟩ := FileTree.resolve_of_pruned_eq free same visited directory
    injection nodes with nodes above
    have kinds : found'.node.kind = spot.node.kind := by
      rw [← FileTree.Node.kind_pruned, ← nodes, FileTree.Node.kind_pruned]
    obtain ⟨-, filled, -⟩ := FileTree.resolve_eq_ok_iff.1 visited
    have free'' := FileTree.linkFree_of_stands free' (FileTree.stands_of_resolve visited')
    apply composeRoot_congr
    · rw [FileTree.kind, FileTree.kind, visited, visited', Except.map, Except.map, kinds]
    · rw [Walk.traversal, Walk.traversal, visited, visited', ordered]
      simp only
      rw [Walk.traverse_of_linkFree other tree true root _ found'.node free'',
        ← Walk.traverse_pruned kind.separator_not_mem_suffix (FileTree.wellFormed_of_resolve visited').1 true filled,
        ← nodes,
        Walk.traverse_pruned kind.separator_not_mem_suffix (FileTree.wellFormed_of_resolve visited).1 true filled]

/-- Does the bundle of a kind show the file at a path? Some change of the file alters what comes of a pass over some
directory. -/
def Composer.Shows (composer : Composer) (tree : FileTree) (path : Path) (kind : Kind) : Prop :=
  ∃ change root spot, Change.OfFile path change ∧ tree.resolve .owner root = .ok spot ∧
    spot.node.kind = .directory ∧
      composer.composeRoot (tree.apply change) root kind ≠ composer.composeRoot tree root kind

/-- Whatever happens to a file whose path does not end with the suffix of a kind: it is made, overwritten, given other
permissions or removed. No pass for the kind shows it, neither in the bundle nor in the errors nor in what is logged,
whichever directory the pass is over. So a file is shown by bundles of one kind at most, and walks for different kinds
have no fragment in common. -/
theorem Composer.composeRoot_of_unselected (composer : Composer) (ordered : composer.order = .lexicographic)
    (tree : FileTree) (free : tree.top.linkFree = true) {directory : Path} {place : Spot}
    (reached : tree.resolve .owner directory = .ok place) (isDirectory : place.node.kind = .directory) {name : Bytes}
    (named : FileTree.isName name = true) (regular : ∀ node, place.node.at? [name] = some node → node.kind = .file) :
    (∀ kind : Kind, Walk.selects (Utf8.encode kind.suffix) (directory.join name) = false →
      ∀ change, Change.OfFile (directory.join name) change → ∀ root spot, tree.resolve .owner root = .ok spot →
        spot.node.kind = .directory →
        composer.composeRoot (tree.apply change) root kind = composer.composeRoot tree root kind) ∧
    (∀ kind kind', composer.Shows tree (directory.join name) kind → composer.Shows tree (directory.join name) kind' →
      kind = kind') ∧
    ∀ (kind kind' : Kind) (root root' : Path) (walk walk' : Walk) (fragment : Fragment),
      Walk.start tree root (Utf8.encode kind.suffix) composer.order = .ok walk →
      Walk.start tree root' (Utf8.encode kind'.suffix) composer.order = .ok walk' →
      .ok fragment ∈ walk.items tree → .ok fragment ∈ walk'.items tree → kind = kind' := by
  obtain ⟨-, filled, -⟩ := FileTree.resolve_eq_ok_iff.1 reached
  obtain ⟨-, -, -, plain, -⟩ := FileTree.isName_iff.1 named
  have unshown (kind : Kind) (unselected : Walk.selects (Utf8.encode kind.suffix) (directory.join name) = false)
      (change : Change) (ofFile : Change.OfFile (directory.join name) change) (root : Path) (spot : Spot)
      (found : tree.resolve .owner root = .ok spot) (walked : spot.node.kind = .directory) :
      composer.composeRoot (tree.apply change) root kind = composer.composeRoot tree root kind := by
    rw [Walk.selects_join filled plain kind.separator_not_mem_suffix] at unselected
    cases own : place.node with
    | directory access entries =>
      have files : ∀ node, Entries.find? name entries = some node → node.kind = .file := by
        intro node held
        apply regular
        rw [own, Node.at?, held]
        rfl
      have same := FileTree.pruned_apply reached own named files unselected ofFile
      exact composer.composeRoot_of_pruned_eq ordered free same.symm found walked
    | _ =>
      rw [own] at isDirectory
      cases isDirectory
  have selected {kind : Kind} (shows : composer.Shows tree (directory.join name) kind) :
      Walk.selects (Utf8.encode kind.suffix) (directory.join name) = true := by
    obtain ⟨change, root, spot, ofFile, found, walked, differs⟩ := shows
    cases selected : Walk.selects (Utf8.encode kind.suffix) (directory.join name) with
    | true => rfl
    | false => exact absurd (unshown kind selected change ofFile root spot found walked) differs
  have ends {kind : Kind} {root : Path} {walk : Walk} {fragment : Fragment}
      (started : Walk.start tree root (Utf8.encode kind.suffix) composer.order = .ok walk)
      (member : .ok fragment ∈ walk.items tree) : Walk.selects (Utf8.encode kind.suffix) fragment.path = true := by
    rw [Walk.items_of_start started, Walk.traversal] at member
    split at member
    · exact Walk.selects_of_mem_traverse _ _ _ _ member
    · cases member
  refine ⟨unshown, fun kind kind' shows shows' => Kind.eq_of_selects (selected shows) (selected shows'), ?_⟩
  intro kind kind' root root' walk walk' fragment started started' member member'
  exact Kind.eq_of_selects (ends started member) (ends started' member')

/-- A stylesheet that nobody may read, in a directory that is named as a script, is overwritten and removed. -/
theorem Composer.composeRoot_of_unselected_siblingTree :
    let composer : Composer := ⟨.single (.ofString "r"), .lexicographic⟩
    let file : Path := (Path.ofString "r/b.js").join (Utf8.encode "c.css")
    let overwritten := siblingTree.apply (.make file (.file (Utf8.encode "4")))
    let removed := siblingTree.apply (.remove file)
    Walk.selects (Utf8.encode Kind.script.suffix) file = false ∧
      composer.composeRoot overwritten (.ofString "r") .script =
        composer.composeRoot siblingTree (.ofString "r") .script ∧
      composer.composeRoot removed (.ofString "r") .script =
        composer.composeRoot siblingTree (.ofString "r") .script ∧
      composer.Shows siblingTree file .stylesheet ∧ ¬ composer.Shows siblingTree file .script := by
  intro composer file overwritten removed
  let inner : Node := .directory .ofDirectory
    [(Utf8.encode "c.css", .file ⟨false, false⟩ []), (Utf8.encode "c.js", .file .ofFile (Utf8.encode "3"))]
  have place : siblingTree.resolve .owner (.ofString "r/b.js") = .ok ⟨inner,
      [(Utf8.encode "b.js", siblingNode), (Utf8.encode "r", siblingTree.top), ([], FileTree.surroundings)]⟩ := rfl
  have held : inner.at? [Utf8.encode "c.css"] = some (.file ⟨false, false⟩ []) := by
    rw [Node.at?, Entries.find?_of_mem (by decide +kernel) (.head _)]
    rfl
  have regular : ∀ node, inner.at? [Utf8.encode "c.css"] = some node → node.kind = .file := by
    intro node same
    rw [held] at same
    cases same
    rfl
  have root : ∃ spot, siblingTree.resolve .owner (.ofString "r") = .ok spot ∧ spot.node.kind = .directory :=
    ⟨_, rfl, rfl⟩
  obtain ⟨spot, found, walked⟩ := root
  obtain ⟨unshown, once, -⟩ := composer.composeRoot_of_unselected rfl siblingTree rfl place rfl (by decide) regular
  have unselected : Walk.selects (Utf8.encode Kind.script.suffix) file = false := by decide +kernel
  have shows : composer.Shows siblingTree file .stylesheet := by
    refine ⟨_, _, spot, .remove, found, walked, fun same => ?_⟩
    have results := congrArg Logged.result same
    have total : composer.order.IsTotal := trivial
    rw [composer.composeRoot_of_directory (by decide +kernel) .stylesheet,
      composer.composeRoot_of_directory (by decide +kernel) .stylesheet,
      Walk.traversal_congr (Walk.agree_sorted total), Walk.traversal_congr (Walk.agree_sorted total)] at results
    revert results
    decide +kernel
  refine ⟨unselected, unshown .script unselected _ (.make _) _ spot found walked,
    unshown .script unselected _ .remove _ spot found walked, shows, fun shown => ?_⟩
  cases once _ _ shows shown

end Composing

end BundleServer
