import BundleServer.Text.Utf8

/-!
# Markers

In a concatenated bundle each fragment stands between two markers. A marker is a template in which every
occurrence of the placeholder stands for the fragment's key. The template is cut at the placeholders, from the
left, and the key is put between the pieces, so bytes of the key are never taken for a placeholder.
-/

namespace BundleServer

/-- What stands for the key in a template: `key` in braces. -/
def placeholder : Bytes := [0x7B, 0x6B, 0x65, 0x79, 0x7D]

namespace Template

/-- Puts a byte in front of the first piece. -/
def extendFirst (b : UInt8) : List Bytes → List Bytes
  | [] => [[b]]
  | piece :: pieces => (b :: piece) :: pieces

/-- The pieces between the placeholders. The number says how many bytes in front still belong to a placeholder. -/
def piecesFrom : Nat → Bytes → List Bytes
  | _, [] => [[]]
  | skip + 1, _ :: rest => piecesFrom skip rest
  | 0, b :: rest =>
    if placeholder.isPrefixOf (b :: rest) then [] :: piecesFrom (placeholder.length - 1) rest
    else extendFirst b (piecesFrom 0 rest)

/-- The pieces of a template between its placeholders. -/
def pieces (template : Bytes) : List Bytes := piecesFrom 0 template

/-- The template with the key in place of every placeholder. -/
def render (template key : Bytes) : Bytes := key.intercalate (pieces template)

end Template

/-- The templates of what stands in front of a fragment and behind it. -/
structure Markers where
  opening : Bytes
  closing : Bytes
  deriving DecidableEq, Repr

namespace Markers

/-- Markers that are written as the given texts. -/
def ofStrings (opening closing : String) : Markers := ⟨Utf8.encode opening, Utf8.encode closing⟩

/-- The line in front of a fragment. -/
def renderOpening (markers : Markers) (key : Bytes) : Bytes := Template.render markers.opening key

/-- The line behind a fragment. -/
def renderClosing (markers : Markers) (key : Bytes) : Bytes := Template.render markers.closing key

end Markers

end BundleServer
