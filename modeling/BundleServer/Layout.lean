import BundleServer.Bundle.Error
import BundleServer.Namespace

/-!
# Where fragments are kept

Either every application has a directory of its own below a common one, or a single directory serves them all.
-/

namespace BundleServer

/-- Where the fragments of applications are kept. -/
inductive Layout where
  /-- One directory for each application. -/
  | multi (apps : Path)
  /-- One directory, whatever the application. -/
  | single (data : Path)
  deriving DecidableEq, Repr

/-- The directory of an application. -/
def Layout.root (layout : Layout) (name? : Option Namespace) : Except BundleError Path :=
  match layout, name? with
  | .multi apps, some name => .ok (apps.join name.path.bytes)
  | .multi _, none => .error (.invalidNamespace "<missing>")
  | .single data, _ => .ok data

/-- The name of an application, or the error that refuses it. -/
def Namespace.parse (raw : String) : Except BundleError Namespace :=
  match Namespace.ofString? raw with
  | some name => .ok name
  | none => .error (.invalidNamespace raw)

end BundleServer
