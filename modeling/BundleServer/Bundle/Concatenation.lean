import BundleServer.Log.Event

/-!
# Concatenating fragments

Fragments stand one behind the other, each between its markers and followed by an empty line. Their bytes are not
touched. What cannot be read is left out and recorded.
-/

namespace BundleServer

/-- The outcome of putting fragments one behind the other. -/
structure Concatenation where
  body : Bytes := []
  errors : List FragmentError := []
  events : List Log.Event := []

namespace Concatenation

/-- The byte at the end of a line. -/
def newline : UInt8 := 0x0A

/-- A fragment between its markers. -/
def block (suffix : Bytes) (markers : Markers) (fragment : Fragment) : Bytes :=
  let key := fragment.key suffix
  markers.renderOpening key ++ newline :: fragment.content ++ markers.renderClosing key ++ [newline, newline]

/-- The fragments among the items. -/
def fragments (items : List Item) : List Fragment := items.filterMap fun
  | .ok fragment => some fragment
  | .error _ => none

/-- The errors among the items. -/
def errorsOf (items : List Item) : List FragmentError := items.filterMap fun
  | .ok _ => none
  | .error error => some error

/-- Takes in one item. -/
def add (suffix : Bytes) (markers : Markers) (whole : Concatenation) (item : Item) : Concatenation :=
  match item with
  | .error error => { whole with errors := whole.errors ++ [error], events := whole.events ++ [.skipped error] }
  | .ok fragment => { whole with body := whole.body ++ block suffix markers fragment }

/-- Puts the fragments of the items one behind the other. -/
def ofItems (suffix : Bytes) (markers : Markers) (items : List Item) : Concatenation :=
  items.foldl (add suffix markers) {}

end Concatenation

end BundleServer
