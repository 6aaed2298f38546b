import BundleServer.FileTree.Fault
import BundleServer.Json.Fault
import BundleServer.Path
import BundleServer.Text.Quoted

/-!
# Errors that leave no bundle

These errors end a whole pass. Faults of single fragments are not among them.
-/

namespace BundleServer

/-- What is wrong with the root of a walk. -/
inductive RootFault where
  | access (fault : FileTree.Fault)
  | notDirectory
  /-- A fault that somebody else reports in words. -/
  | reported (text : String)
  deriving DecidableEq, Repr

/-- The wording of a root's fault. -/
def RootFault.text : RootFault → String
  | .access fault => fault.text
  | .notDirectory => "not a directory"
  | .reported text => text

/-- Why there is no bundle. -/
inductive BundleError where
  | invalidRoot (path : Path) (fault : RootFault)
  | invalidNamespace (raw : String)
  | emptySuffix
  | unwritable (error : Json.SyntaxError)
  deriving DecidableEq, Repr

/-- The error as people see it. -/
def BundleError.message : BundleError → String
  | .invalidRoot path fault => s!"Invalid aggregation root {path.display}: {fault.text}"
  | .invalidNamespace raw => "Invalid application namespace: " ++ Text.Quoted.quote raw
  | .emptySuffix => "Suffix must be non-empty"
  | .unwritable error => s!"Failed to serialize aggregate: {error.message}"

end BundleServer
