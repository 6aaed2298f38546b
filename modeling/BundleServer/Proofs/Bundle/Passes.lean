import BundleServer.Bundle.Composer
import BundleServer.Proofs.Walk.Traversal

/-!
# What comes of a pass

A pass over a directory gives a bundle, whatever stands in the directory: it is composed of the items of the plain
recursion. Only a root that does not lead to a directory leaves no bundle, since the suffix of a kind is never empty and
a merged object can always be written.
-/

namespace BundleServer

/-- Why a path cannot be the root of a pass: it cannot be resolved, or does not lead to a directory. -/
inductive FileTree.Refuses (tree : FileTree) (root : Path) : RootFault → Prop where
  | unresolved {fault : FileTree.Fault} (failed : tree.resolve .visitor root = .error fault) :
    Refuses tree root (.access fault)
  | occupied {spot : FileTree.Spot} (reached : tree.resolve .visitor root = .ok spot)
    (other : spot.node.kind ≠ .directory) : Refuses tree root .notDirectory

/-- A path leads to a directory, or cannot be a root. -/
theorem FileTree.directory_or_refuses (tree : FileTree) (root : Path) :
    tree.kind root = .ok .directory ∨ ∃ fault, tree.Refuses root fault := by
  cases reached : tree.resolve .visitor root with
  | error fault => exact .inr ⟨_, .unresolved reached⟩
  | ok spot =>
    by_cases directory : spot.node.kind = .directory
    · refine .inl ?_
      rw [FileTree.kind, reached, Except.map, directory]
    · exact .inr ⟨_, .occupied reached directory⟩

theorem Kind.suffix_ne_nil (kind : Kind) : Utf8.encode kind.suffix ≠ [] := by
  cases kind <;> decide

theorem Kind.separator_not_mem_suffix (kind : Kind) : Path.separator ∉ Utf8.encode kind.suffix := by
  cases kind <;> decide

namespace Composer

/-- A pass over a directory composes the items of the plain recursion. -/
theorem composeRoot_of_directory (composer : Composer) {tree : FileTree} {root : Path}
    (directory : tree.kind root = .ok .directory) (kind : Kind) :
    (composer.composeRoot tree root kind).result = .ok (composeItems kind root
      (Walk.traversal tree (Utf8.encode kind.suffix) composer.order.arrange root)).result := by
  have started : Walk.start tree root (Utf8.encode kind.suffix) composer.order =
      .ok ⟨Utf8.encode kind.suffix, composer.order, [.root root]⟩ :=
    Walk.start_eq_ok_iff.2 ⟨kind.suffix_ne_nil, directory, rfl⟩
  rw [← Walk.items_of_start started, composeRoot, started]

/-- Passes over trees in which the root leads to the same kind of node and to the same items are the same. -/
theorem composeRoot_congr (composer : Composer) {first second : FileTree} {root : Path}
    (kinds : first.kind root = second.kind root) (kind : Kind)
    (items : Walk.traversal first (Utf8.encode kind.suffix) composer.order.arrange root =
      Walk.traversal second (Utf8.encode kind.suffix) composer.order.arrange root) :
    composer.composeRoot first root kind = composer.composeRoot second root kind := by
  have started : Walk.start first root (Utf8.encode kind.suffix) composer.order =
      Walk.start second root (Utf8.encode kind.suffix) composer.order := by
    unfold Walk.start
    rw [kinds]
  unfold composeRoot
  cases walks : Walk.start second root (Utf8.encode kind.suffix) composer.order with
  | error error => rw [started, walks]
  | ok walk =>
    have same : walk.items first = walk.items second := by
      rw [Walk.items_of_start (started.trans walks), Walk.items_of_start walks, items]
    rw [started, walks]
    simp only [same]

/-- A pass over a root that is refused says why. -/
theorem composeRoot_of_refuses (composer : Composer) {tree : FileTree} {root : Path} {fault : RootFault}
    (refuses : tree.Refuses root fault) (kind : Kind) :
    (composer.composeRoot tree root kind).result = .error (.invalidRoot root fault) := by
  have failed : Walk.start tree root (Utf8.encode kind.suffix) composer.order = .error (.invalidRoot root fault) := by
    unfold Walk.start
    rw [if_neg kind.suffix_ne_nil]
    cases refuses with
    | unresolved failed => rw [FileTree.kind, failed, Except.map]
    | @occupied spot reached other =>
      rw [FileTree.kind, reached, Except.map]
      cases what : spot.node.kind with
      | directory => exact absurd what other
      | _ => rfl
  rw [composeRoot, failed]
  rfl

/-- A pass over a root gives a bundle, or says what is wrong with the root. -/
theorem composeRoot_cases (composer : Composer) (tree : FileTree) (root : Path) (kind : Kind) :
    (∃ bundle, (composer.composeRoot tree root kind).result = .ok bundle) ∨
      ∃ fault, (composer.composeRoot tree root kind).result = .error (.invalidRoot root fault) := by
  rcases tree.directory_or_refuses root with directory | ⟨fault, refuses⟩
  · exact .inl ⟨_, composer.composeRoot_of_directory directory kind⟩
  · exact .inr ⟨fault, composer.composeRoot_of_refuses refuses kind⟩

/-- A pass for a named application gives a bundle, or says what is wrong with the application's root. -/
theorem compose_cases (composer : Composer) (tree : FileTree) (name : Namespace) (kind : Kind) :
    (∃ bundle, (composer.compose tree (some name) kind).result = .ok bundle) ∨
      ∃ root fault, (composer.compose tree (some name) kind).result = .error (.invalidRoot root fault) := by
  unfold compose
  cases composer.layout with
  | multi apps =>
    exact (composer.composeRoot_cases tree (apps.join name.path.bytes) kind).imp_right fun failed => ⟨_, failed⟩
  | single data => exact (composer.composeRoot_cases tree data kind).imp_right fun failed => ⟨_, failed⟩

end Composer

end BundleServer
