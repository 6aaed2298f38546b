import BundleServer.Proofs.Bundle.Passes
import BundleServer.Proofs.FileTree.Scope

/-!
# What a bundle shows of the tree

The plain recursion behind a walk looks at the tree only where a link stands. So where there is none, bundles composed
from two trees that show the same of the root are the same, with all that is recorded on the way.
-/

namespace BundleServer

namespace Walk

variable {suffix : Bytes} {arrange : Path → List (Bytes × FileTree.Kind) → List (Bytes × FileTree.Kind)}

mutual

/-- Below a node without links the recursion does not depend on the tree around it. -/
theorem traverse_of_linkFree (first second : FileTree) (reachable : Bool) (path : Path) (name : Bytes)
    (node : FileTree.Node) (free : node.linkFree = true) :
    traverse first suffix arrange reachable path name node =
      traverse second suffix arrange reachable path name node := by
  cases node with
  | link target => cases free
  | directory access entries =>
    have inside := traverseEntries_of_linkFree first second access.search path entries free
    rw [traverse, traverse, inside]
  | _ => simp only [traverse]

theorem traverseEntries_of_linkFree (first second : FileTree) (reachable : Bool) (path : Path)
    (entries : List (Bytes × FileTree.Node)) (free : FileTree.Node.linkFreeEntries entries = true) :
    traverseEntries first suffix arrange reachable path entries =
      traverseEntries second suffix arrange reachable path entries := by
  match entries with
  | [] => rfl
  | (name, node) :: rest =>
    rw [FileTree.Node.linkFreeEntries, Bool.and_eq_true] at free
    have here := traverse_of_linkFree first second reachable (path.join name) name node free.1
    have others := traverseEntries_of_linkFree first second reachable path rest free.2
    rw [traverseEntries, traverseEntries, here, others]

end

end Walk

section Composing

variable {first second : FileTree} {root : Path} (same : first.SameTree root.names second) (plain : root.IsPlain)

include same plain

theorem Walk.traversal_of_sameTree (suffix : Bytes)
    (arrange : Path → List (Bytes × FileTree.Kind) → List (Bytes × FileTree.Kind)) :
    traversal first suffix arrange root = traversal second suffix arrange root := by
  unfold traversal
  rcases same.resolve_cases plain List.prefix_rfl with ⟨fault, one, other⟩ | ⟨spot, spot', one, other, alike⟩
  · rw [one, other]
  · rw [one, other]
    simp only [alike.eq]
    exact traverse_of_linkFree first second true root _ spot'.node alike.symm.free

theorem Composer.composeRoot_eq (composer : Composer) (kind : Kind) :
    composer.composeRoot first root kind = composer.composeRoot second root kind :=
  composer.composeRoot_congr (same.kind_eq plain List.prefix_rfl) kind (Walk.traversal_of_sameTree same plain _ _)

end Composing

end BundleServer
