import BundleServer.FileTree.Fault
import BundleServer.FileTree.Node

/-!
# The file tree and the lookup of paths

A path is a list of steps. Each step starts from a spot: a node with the directories above it. Symbolic links
are followed by putting the steps of their target in front of the remaining ones; one lookup follows at most
forty. A visitor needs permission to search every directory in which a step is looked up; the owner does not.

Some things are left out. The tree stands in surroundings that are an empty directory: absolute paths, and paths that
lead above the top, lead there, and every further name is definitely not found. So what is said of trees speaks of roots
and links that stay inside of the tree. A single name has a limit in length, a whole path has none. Every node has one
place: there are no hard links.
-/

namespace BundleServer

/-- A file tree: the top directory and all below it. -/
structure FileTree where
  top : FileTree.Node
  wellFormed : top.WellFormed

namespace FileTree

/-- The tree without any entry. -/
def empty : FileTree := ⟨.directory .ofDirectory [], by simp [Node.WellFormed, Node.WellFormedEntries]⟩

instance : Inhabited FileTree := ⟨empty⟩

/-- Who looks up a path. -/
inductive Caller where
  | owner
  | visitor
  deriving DecidableEq, Repr

/-- One step of a path. `enter` stands for a separator: what was reached must be a directory. `outermost` stands in
front of absolute paths. -/
inductive Step where
  | outermost
  | enter
  | here
  | up
  | name (name : Bytes)
  deriving DecidableEq, Repr

/-- The step of what stands between two separators. -/
def Step.ofPiece (piece : Bytes) : List Step :=
  if piece = [] then []
  else if piece = [Path.dot] then [.here]
  else if piece = [Path.dot, Path.dot] then [.up]
  else [.name piece]

/-- The steps of a path. -/
def steps (path : Path) : List Step :=
  match Bytes.split Path.separator path.bytes with
  | [] => []
  | first :: others =>
    (if path.isAbsolute then [.outermost] else Step.ofPiece first) ++
      others.flatMap fun piece => .enter :: Step.ofPiece piece

/-- A node of the tree, with the names and nodes of the directories above it, nearest first. Each name is that
of the node below. -/
structure Spot where
  node : Node
  above : List (Bytes × Node)

namespace Spot

/-- The names that lead down to the spot from the outermost directory. -/
def address (spot : Spot) : List Bytes := (spot.above.map Prod.fst).reverse

/-- The directory above. The outermost directory is above itself. -/
def up (spot : Spot) : Spot :=
  match spot.above with
  | [] => spot
  | (_, parent) :: above => ⟨parent, above⟩

/-- The outermost directory. -/
def outermost (spot : Spot) : Spot :=
  match spot.above.getLast? with
  | none => spot
  | some (_, node) => ⟨node, []⟩

/-- The spot, if it is a directory. -/
def enter (spot : Spot) : Except Fault Spot :=
  if spot.node.kind = .directory then .ok spot else .error .notDirectory

/-- The entries of the spot, if the caller may search it. -/
def search (caller : Caller) (spot : Spot) : Except Fault Entries :=
  match spot.node with
  | .directory access entries =>
    if caller = .owner || access.search then .ok entries else .error .permissionDenied
  | _ => .error .notDirectory

/-- The spot of an entry. -/
def child (caller : Caller) (spot : Spot) (name : Bytes) : Except Fault Spot := do
  let entries ← spot.search caller
  if nameLimit < name.length then .error .nameTooLong
  else match entries.find? name with
    | some node => .ok ⟨node, (name, spot.node) :: spot.above⟩
    | none => .error .notFound

end Spot

/-- Takes steps from a spot and gives the spot they lead to, with the number of links that may still be
followed. What happens at a link is given by `follow`, which gets the directory that holds the link and the steps
that then remain. -/
def advance (caller : Caller) (links : Nat) (follow : Spot → List Step → Except Fault (Spot × Nat)) :
    Spot → List Step → Except Fault (Spot × Nat)
  | spot, [] => .ok (spot, links)
  | spot, .outermost :: rest => advance caller links follow spot.outermost rest
  | spot, .enter :: rest => do advance caller links follow (← spot.enter) rest
  | spot, .here :: rest => do
    let _ ← spot.search caller
    advance caller links follow spot rest
  | spot, .up :: rest => do
    let _ ← spot.search caller
    advance caller links follow spot.up rest
  | spot, .name name :: rest => do
    let child ← spot.child caller name
    match child.node with
    | .link target => if target.bytes = [] then .error .notFound else follow spot (steps target ++ rest)
    | _ => advance caller links follow child rest

/-- Takes steps from a spot and follows at most so many links. -/
def descend (caller : Caller) : Nat → Spot → List Step → Except Fault (Spot × Nat)
  | 0 => advance caller 0 fun _ _ => .error .tooManyLinks
  | links + 1 => advance caller (links + 1) (descend caller links)

/-- How many links one lookup follows. -/
def linkLimit : Nat := 40

/-- The steps of a path, if it can be looked up at all. -/
def checkedSteps (path : Path) : Except Fault (List Step) :=
  if path.bytes.contains 0 then .error .nulInPath
  else if path.bytes = [] then .error .notFound
  else .ok (steps path)

/-- The directory around the tree. -/
def surroundings : Node := .directory .ofDirectory []

/-- The top of the tree as a spot. In its surroundings it has no name. -/
def start (tree : FileTree) : Spot := ⟨tree.top, [([], surroundings)]⟩

/-- The spot to which steps from the top lead. -/
def walkFromTop (tree : FileTree) (caller : Caller) (steps : List Step) : Except Fault Spot :=
  (descend caller linkLimit tree.start steps).map Prod.fst

/-- The spot to which a path leads. -/
def resolve (tree : FileTree) (caller : Caller) (path : Path) : Except Fault Spot := do
  tree.walkFromTop caller (← checkedSteps path)

/-- The spot to which a path leads. A link that the path names last is not followed. -/
def resolveLast (tree : FileTree) (caller : Caller) (path : Path) : Except Fault Spot := do
  let steps ← checkedSteps path
  match steps.getLast? with
  | some (.name name) => (← tree.walkFromTop caller steps.dropLast).child caller name
  | _ => tree.walkFromTop caller steps

/-- The kind of what a path leads to. -/
def kind (tree : FileTree) (path : Path) : Except Fault Kind :=
  (tree.resolve .visitor path).map (·.node.kind)

/-- The kind of what a path names, which may be a link. -/
def kindOfLast (tree : FileTree) (path : Path) : Except Fault Kind :=
  (tree.resolveLast .visitor path).map (·.node.kind)

/-- What comes of reading. -/
inductive Reading where
  | content (content : Bytes)
  | fault (fault : Fault)
  /-- The reader of a fifo waits for somebody who writes. Nobody does, so the call does not return. -/
  | waits
  deriving DecidableEq, Repr

/-- What a visitor reads of a node. -/
def Node.reading : Node → Reading
  | .file access content => if access.read then .content content else .fault .permissionDenied
  | .directory access _ => .fault (if access.read then .isDirectory else .permissionDenied)
  | .fifo access => if access.read then .waits else .fault .permissionDenied
  | .link _ => .fault .tooManyLinks

/-- What comes of reading the file that a path leads to. -/
def read (tree : FileTree) (path : Path) : Reading :=
  match tree.resolve .visitor path with
  | .ok spot => spot.node.reading
  | .error fault => .fault fault

/-- The names and kinds of the entries of the directory that a path leads to. -/
def list (tree : FileTree) (path : Path) : Except Fault (List (Bytes × Kind)) := do
  match (← tree.resolve .visitor path).node with
  | .directory access entries =>
    if access.read then .ok (entries.map fun entry => (entry.1, entry.2.kind)) else .error .permissionDenied
  | _ => .error .notDirectory

end FileTree

end BundleServer
