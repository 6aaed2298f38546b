import BundleServer.FileTree.Node

/-!
# The order of siblings

A walk takes the entries of each directory in an order that is chosen once for the whole walk.
-/

namespace BundleServer

/-- In which order the entries of one directory are taken. -/
inductive SiblingOrder where
  /-- By the bytes of their names. -/
  | lexicographic
  /-- As the file system lists them. -/
  | filesystem
  /-- By a comparison of their paths. -/
  | custom (compare : Path → Path → Ordering)

namespace SiblingOrder

/-- Does an entry of the directory at `path` stand in front of another one, or beside it? -/
def le (compare : Path → Path → Ordering) (path : Path) (a b : Bytes × FileTree.Kind) : Bool :=
  compare (path.join a.1) (path.join b.1) != .gt

/-- The entries of the directory at `path` in order. Entries that compare equal stay as they are listed. -/
def arrange (order : SiblingOrder) (path : Path) (entries : List (Bytes × FileTree.Kind)) :
    List (Bytes × FileTree.Kind) :=
  match order with
  | .lexicographic => entries.mergeSort fun a b => Bytes.compare a.1 b.1 != .gt
  | .filesystem => entries
  | .custom compare => entries.mergeSort (le compare path)

theorem arrange_perm (order : SiblingOrder) (path : Path) (entries : List (Bytes × FileTree.Kind)) :
    (order.arrange path entries).Perm entries := by
  cases order with
  | lexicographic => exact List.mergeSort_perm _ _
  | filesystem => exact List.Perm.refl _
  | custom => exact List.mergeSort_perm _ _

end SiblingOrder

end BundleServer
