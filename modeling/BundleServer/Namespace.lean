import BundleServer.Path

/-!
# Application names

An application is named by one path component that cannot lead out of the directory it is joined to. The
check is made once, when the name is read, and the type keeps its outcome.
-/

namespace BundleServer

namespace Namespace

/-- Is the text a single component other than `.` and `..`, without separators of either kind and NUL? -/
def isSafe (raw : String) : Bool :=
  raw ≠ "" && raw ≠ "." && raw ≠ ".." &&
    !raw.toList.any fun c => c = '/' || c = '\\' || c = '\x00'

end Namespace

/-- The name of an application. -/
structure Namespace where
  text : String
  safe : Namespace.isSafe text = true
  deriving DecidableEq, Repr

namespace Namespace

/-- The name, if the text is safe. -/
def ofString? (raw : String) : Option Namespace :=
  if safe : isSafe raw = true then some ⟨raw, safe⟩ else none

/-- The name as a relative path of one component. -/
def path (name : Namespace) : Path := .ofString name.text

end Namespace

end BundleServer
