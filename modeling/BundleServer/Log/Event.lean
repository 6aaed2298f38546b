import BundleServer.Bundle.Error
import BundleServer.Bundle.Kind
import BundleServer.Fragment
import BundleServer.Log.Level

/-!
# Log events

What the library reports besides its answers. An event is data; its level and wording are given here. A result that
comes with events is `Logged`.
-/

namespace BundleServer.Log

/-- What a composed bundle is measured in. -/
inductive Extent where
  | entries (count : Nat)
  | bytes (count : Nat)
  deriving DecidableEq, Repr

/-- The wording of a bundle's extent. -/
def Extent.text : Extent → String
  | .entries count => s!"{count} entries"
  | .bytes count => s!"{count} bytes"

/-- Something that is reported. -/
inductive Event where
  /-- A fragment was left out. -/
  | skipped (error : FragmentError)
  /-- A fragment took the place of an earlier one with the same key. -/
  | overridden (key : String) (path previous : Path)
  /-- A bundle was composed. -/
  | composed (kind : Kind) (root : Path) (extent : Extent) (missing : Nat)
  /-- A request named no application. -/
  | refusedName (raw : String) (error : BundleError)
  /-- A bundle was served without some of its fragments. -/
  | servedInPart (kind : Kind) (app : String) (missing : Nat)
  /-- A requested bundle could not be composed. -/
  | notComposed (kind : Kind) (app : String) (error : BundleError)
  /-- A request path stands for no static file. -/
  | refusedPath (raw : String)
  /-- A static file could not be served. -/
  | notServed (path : Path) (fault : FileTree.Fault)
  deriving DecidableEq, Repr

namespace Event

/-- How grave an event is. -/
def level : Event → Level
  | .skipped _ => .warn
  | .overridden .. => .debug
  | .composed .. => .debug
  | .refusedName .. => .warn
  | .servedInPart .. => .warn
  | .notComposed .. => .error
  | .refusedPath _ => .debug
  | .notServed .. => .error

/-- The event as people see it. -/
def message : Event → String
  | .skipped error => s!"Skipping fragment: {error.message}"
  | .overridden key path previous =>
    s!"Duplicate key {Text.Quoted.quote key}: {path.display} overrides {previous.display}"
  | .composed kind root extent missing =>
    s!"Aggregated {kind.name} from {root.display}: {extent.text}, {missing} skipped"
  | .refusedName raw error => s!"error: rejecting app {Text.Quoted.quote raw}: {error.message}"
  | .servedInPart kind app missing => s!"Served {kind.name} for {app} with {missing} skipped fragment(s)"
  | .notComposed kind app error => s!"error: collecting {kind.name} for {app}: {error.message}"
  | .refusedPath raw => s!"Rejected static path {Text.Quoted.quote raw}"
  | .notServed path fault => s!"error: serving static file: {path.display}, err: {fault.text}"

end Event

end BundleServer.Log

namespace BundleServer

/-- A result with the events reported on the way to it. -/
structure Logged (α : Type) where
  result : α
  events : List Log.Event

namespace Logged

variable {α β : Type}

/-- A result without events. -/
def silent (result : α) : Logged α := ⟨result, []⟩

/-- The same result with further events in front. -/
def after (events : List Log.Event) (logged : Logged α) : Logged α := ⟨logged.result, events ++ logged.events⟩

end Logged

end BundleServer
