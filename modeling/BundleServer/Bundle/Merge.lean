import BundleServer.Json.Parser
import BundleServer.Json.Printer
import BundleServer.Log.Event

/-!
# Merging fragments

Fragments are read as JSON and become the members of one object, each under its key. A later fragment takes the place
of an earlier one with the same key. What cannot be read or parsed is left out and recorded.
-/

namespace BundleServer

/-- Fragments merged so far. -/
structure Merge where
  members : Json.Members Json.Value := []
  /-- For each key, the path of the fragment that holds it. -/
  origins : Json.Members Path := []
  errors : List FragmentError := []
  events : List Log.Event := []

namespace Merge

/-- The key of a fragment as a name of the object. What is not UTF-8 becomes U+FFFD. -/
def nameOf (suffix : Bytes) (fragment : Fragment) : String := Utf8.lossy (fragment.key suffix)

/-- The fragment with the value it holds. -/
def readValue (item : Item) : Except FragmentError (Fragment × Json.Value) := do
  let fragment ← item
  match Json.parse fragment.content with
  | .ok value => return (fragment, value)
  | .error error => throw (.parse fragment.path error)

/-- Takes in one item. -/
def add (suffix : Bytes) (merge : Merge) (item : Item) : Merge :=
  match readValue item with
  | .error error =>
    { merge with errors := merge.errors ++ [error], events := merge.events ++ [.skipped error] }
  | .ok (fragment, value) =>
    let name := nameOf suffix fragment
    let replaced := match merge.origins.get? name with
      | some previous => [.overridden name fragment.path previous]
      | none => []
    { members := merge.members.insert name value
      origins := merge.origins.insert name fragment.path
      errors := merge.errors
      events := merge.events ++ replaced }

/-- Merges items in their order. -/
def ofItems (suffix : Bytes) (items : List Item) : Merge := items.foldl (add suffix) {}

/-- The merged object as text. -/
def body (merge : Merge) : Bytes := (Json.Value.object merge.members).write

end Merge

end BundleServer
