import BundleServer.Bundle.Concatenation
import BundleServer.Bundle.Merge
import BundleServer.Layout
import BundleServer.Walk.Basic

/-!
# Composing bundles

A composer walks the fragments of an application and composes a bundle of one kind. It keeps nothing between two
passes: every bundle shows the tree as it is.
-/

namespace BundleServer

/-- A composed bundle, with the errors of the fragments that were left out. -/
structure Bundle where
  kind : Kind
  body : Bytes
  errors : List FragmentError
  deriving DecidableEq, Repr

/-- What a composer has to know: where fragments are kept, and in which order siblings are taken. -/
structure Composer where
  layout : Layout
  order : SiblingOrder

namespace Composer

/-- Composes the items of a walk from `root`. -/
def composeItems (kind : Kind) (root : Path) (items : List Item) : Logged Bundle :=
  let suffix := Utf8.encode kind.suffix
  match kind.composition with
  | .merge =>
    let merge := Merge.ofItems suffix items
    ⟨⟨kind, merge.body, merge.errors⟩,
      merge.events ++ [.composed kind root (.entries merge.members.length) merge.errors.length]⟩
  | .concatenate markers =>
    let whole := Concatenation.ofItems suffix markers items
    ⟨⟨kind, whole.body, whole.errors⟩,
      whole.events ++ [.composed kind root (.bytes whole.body.length) whole.errors.length]⟩

/-- Composes the bundle of the fragments below a directory. The walk is asked on one tree until it ends, which it always
does there. -/
def composeRoot (composer : Composer) (tree : FileTree) (root : Path) (kind : Kind) :
    Logged (Except BundleError Bundle) :=
  match Walk.start tree root (Utf8.encode kind.suffix) composer.order with
  | .error error => .silent (.error error)
  | .ok walk =>
    let composed := composeItems kind root (walk.items tree)
    ⟨.ok composed.result, composed.events⟩

/-- Composes a bundle of an application. -/
def compose (composer : Composer) (tree : FileTree) (name? : Option Namespace) (kind : Kind) :
    Logged (Except BundleError Bundle) :=
  match composer.layout.root name? with
  | .error error => .silent (.error error)
  | .ok root => composer.composeRoot tree root kind

end Composer

end BundleServer
