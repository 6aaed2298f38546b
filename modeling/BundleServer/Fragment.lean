import BundleServer.FileTree.Fault
import BundleServer.Json.Fault
import BundleServer.Path

/-!
# Fragments

A fragment is one small file that becomes part of a bundle. Its key is its name without the suffix by which it was
chosen. A file that cannot be read or understood gives an error of its own and never spoils the others.
-/

namespace BundleServer

/-- One file with its content, by its path and its name. -/
structure Fragment where
  path : Path
  name : Bytes
  content : Bytes
  deriving DecidableEq, Repr

/-- Why a fragment could not be read. -/
inductive ReadFault where
  | access (fault : FileTree.Fault)
  /-- A fault met while an entry was opened during a walk. -/
  | opening (path : Path) (fault : FileTree.Fault)
  /-- A fault that somebody else reports in words. -/
  | reported (text : String)
  deriving DecidableEq, Repr

/-- The wording of a fault. -/
def ReadFault.text : ReadFault → String
  | .access fault => fault.text
  | .opening path fault => s!"IO error for operation on {path.display}: {fault.text}"
  | .reported text => text

/-- Why a fragment was left out. -/
inductive FragmentError where
  | read (path : Path) (fault : ReadFault)
  | parse (path : Path) (error : Json.SyntaxError)
  deriving DecidableEq, Repr

namespace FragmentError

/-- The path of the fragment. -/
def path : FragmentError → Path
  | .read path _ => path
  | .parse path _ => path

/-- The error as people see it. -/
def message : FragmentError → String
  | .read path fault => s!"Failed to read fragment {path.display}: {fault.text}"
  | .parse path error => s!"Failed to parse JSON fragment {path.display}: {error.message}"

end FragmentError

/-- What a walk gives: a fragment, or an error in its place. -/
abbrev Item := Except FragmentError Fragment

namespace Fragment

/-- A name without the suffix. A name that does not end with it stays as it is. -/
def keyOf (suffix name : Bytes) : Bytes := (Bytes.dropSuffix? suffix name).getD name

/-- The key of a fragment. -/
def key (suffix : Bytes) (fragment : Fragment) : Bytes := keyOf suffix fragment.name

theorem keyOf_append (front suffix : Bytes) : keyOf suffix (front ++ suffix) = front := by
  simp [keyOf, Bytes.dropSuffix?_append]

end Fragment

end BundleServer
