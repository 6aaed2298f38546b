import BundleServer.FileTree.Lemmas

/-!
# Changes of the file tree

Entries are made, removed and renamed, and permissions set, by the owner of the tree. A change that cannot be
made leaves the tree as it is. Every change keeps the tree well-formed.
-/

namespace BundleServer.FileTree

/-- What is made at a path. -/
inductive Content where
  | file (content : Bytes)
  | directory
  | link (target : Path)
  | fifo
  deriving DecidableEq, Repr

/-- The node that is created for some content. -/
def Content.node : Content → Node
  | .file content => .file .ofFile content
  | .directory => .directory .ofDirectory []
  | .link target => .link target
  | .fifo => .fifo .ofFile

theorem Content.wellFormed_node (content : Content) : content.node.WellFormed := by
  cases content <;> simp [Content.node, Node.WellFormed, Node.WellFormedEntries]

/-- A change of the tree. -/
inductive Change where
  | make (path : Path) (content : Content)
  | setAccess (path : Path) (access : Access)
  | remove (path : Path)
  | rename (path : Path) (target : Path)
  deriving DecidableEq, Repr

/-- Changes the node at the address of a spot. The surroundings of the tree do not change. -/
def modifyAt (tree : FileTree) (address : List Bytes) (change : Node → Node)
    (keeps : ∀ node : Node, node.WellFormed → (change node).WellFormed) : FileTree :=
  match address with
  | [] => tree
  | _ :: names => ⟨tree.top.modifyAt change names, tree.wellFormed.modifyAt keeps names⟩

/-- The directory part of a path and its last name. -/
def splitLast? (path : Path) : Option (List Step × Bytes) :=
  match (steps path).reverse.dropWhile fun step => step = .enter with
  | Step.name name :: front => some (front.reverse, name)
  | _ => none

/-- The spot of the directory that steps lead to from the top. -/
def directoryAt (tree : FileTree) (front : List Step) : Except Fault Spot := do
  (← tree.walkFromTop .owner front).enter

theorem wellFormed_of_directoryAt {tree : FileTree} {front : List Step} {spot : Spot}
    (reached : tree.directoryAt front = .ok spot) : spot.WellFormed := by
  unfold directoryAt at reached
  simp only [bind, Except.bind] at reached
  split at reached
  · simp at reached
  · rename_i found
    exact (Spot.eq_of_enter reached).1 ▸ wellFormed_of_walkFromTop found

/-- Puts a node under a name into the directory at an address. -/
def putAt (tree : FileTree) (address : List Bytes) (name : Bytes) (node : Node) (inner : node.WellFormed) :
    FileTree :=
  if named : isName name = true then
    tree.modifyAt address (Node.mapEntries (Entries.put name node)) fun _ h => h.put named inner
  else tree

/-- Removes the entry of a name from the directory at an address. -/
def eraseAt (tree : FileTree) (address : List Bytes) (name : Bytes) : FileTree :=
  tree.modifyAt address (Node.mapEntries (Entries.erase name)) fun _ h => h.erase name

/-- Makes a directory of a name in the directory to which the steps lead, unless there is an entry already. -/
def makeDirectory (tree : FileTree) (front : List Step) (name : Bytes) : FileTree :=
  match tree.directoryAt front with
  | .ok spot => match spot.child .owner name with
    | .error .notFound =>
      tree.putAt spot.address name Content.directory.node Content.directory.wellFormed_node
    | _ => tree
  | .error _ => tree

/-- Makes the directories that steps name, from where `done` leads, as far as they are missing. -/
def makeParentsFrom (done : List Step) (tree : FileTree) : List Step → FileTree
  | [] => tree
  | .name name :: rest => makeParentsFrom (done ++ [.name name]) (tree.makeDirectory done name) rest
  | step :: rest => makeParentsFrom (done ++ [step]) tree rest

/-- Makes the directories that steps from the top name, as far as they are missing. -/
def makeParents (tree : FileTree) (front : List Step) : FileTree := makeParentsFrom [] tree front

/-- The directory and the name where a file is written that is asked for at the end of some steps: if a link stands
there, this is where its target leads. At most so many links are followed one behind another. -/
def placeOfFile (links : Nat) (spot : Spot) (steps : List Step) : Except Fault (Spot × Bytes) :=
  match steps.reverse with
  | .name name :: front => do
    let spot ← ((← descend .owner linkLimit spot front.reverse).1).enter
    match spot.child .owner name with
    | .error .notFound => return (spot, name)
    | .error fault => throw fault
    | .ok child => match child.node with
      | .link target => match links with
        | 0 => throw .tooManyLinks
        | links + 1 => placeOfFile links spot (FileTree.steps target)
      | _ => return (spot, name)
  | _ => throw .isDirectory

/-- Writes a file. One that is there gets the new content and keeps its permissions, a fifo is replaced, and a
directory stays as it is. -/
def writeFile (tree : FileTree) (steps : List Step) (bytes : Bytes) : FileTree :=
  match placeOfFile linkLimit tree.start steps with
  | .error _ => tree
  | .ok (spot, name) =>
    let put := tree.putAt spot.address name (Content.file bytes).node (Content.file bytes).wellFormed_node
    match spot.child .owner name with
    | .error _ => put
    | .ok child => match child.node with
      | .file .. => tree.modifyAt child.address (Node.withContent bytes) fun _ h => h.withContent bytes
      | .fifo _ => put
      | _ => tree

/-- Puts a new node under a name in the directory to which the steps lead, in place of anything but a directory. -/
def place (tree : FileTree) (front : List Step) (name : Bytes) (content : Content) : FileTree :=
  match tree.directoryAt front with
  | .error _ => tree
  | .ok spot =>
    let put := tree.putAt spot.address name content.node content.wellFormed_node
    match spot.child .owner name with
    | .error .notFound => put
    | .error _ => tree
    | .ok child => if child.node.kind = .directory then tree else put

/-- Makes an entry and the directories above it. A file is written through links, and where the path leads to a
directory, be it through a link, no directory is made. -/
def make (tree : FileTree) (path : Path) (content : Content) : FileTree :=
  match splitLast? path with
  | none => tree
  | some (front, name) =>
    let tree := tree.makeParents front
    let steps := front ++ [.name name]
    match content, tree.directoryAt steps with
    | .file bytes, _ => tree.writeFile steps bytes
    | .directory, .ok _ => tree
    | content, _ => tree.place front name content

/-- Sets the permissions of what a path leads to. -/
def setAccess (tree : FileTree) (path : Path) (access : Access) : FileTree :=
  match tree.resolve .owner path with
  | .ok spot => tree.modifyAt spot.address (Node.withAccess access) fun _ h => h.withAccess access
  | .error _ => tree

/-- Removes an entry with all below it. -/
def remove (tree : FileTree) (path : Path) : FileTree :=
  match splitLast? path with
  | none => tree
  | some (front, name) => match tree.directoryAt front with
    | .ok spot => tree.eraseAt spot.address name
    | .error _ => tree

/-- May a node take the place of another one? A directory may replace an empty directory only, and anything
else may replace what is no directory. -/
def canReplace (node other : Node) : Bool :=
  match node, other with
  | .directory .., .directory _ entries => entries.isEmpty
  | .directory .., _ => false
  | _, .directory .. => false
  | _, _ => true

/-- Moves an entry to another directory or name. A directory cannot move into itself. -/
def rename (tree : FileTree) (path target : Path) : FileTree :=
  match splitLast? path, splitLast? target with
  | some (front, name), some (targetFront, targetName) =>
    match origin : tree.directoryAt front, tree.directoryAt targetFront with
    | .ok source, .ok destination => match found : source.child .owner name with
      | .error _ => tree
      | .ok moved =>
        let inside := moved.address.isPrefixOf destination.address
        let free := match destination.child .owner targetName with
          | .ok other => canReplace moved.node other.node && moved.address ≠ other.address
          | .error fault => fault = .notFound
        if !inside && free then
          (tree.eraseAt source.address name).putAt destination.address targetName moved.node
            ((wellFormed_of_directoryAt origin).child found).1
        else tree
    | _, _ => tree
  | _, _ => tree

/-- The tree after a change. -/
def apply (tree : FileTree) : Change → FileTree
  | .make path content => tree.make path content
  | .setAccess path access => tree.setAccess path access
  | .remove path => tree.remove path
  | .rename path target => tree.rename path target

end BundleServer.FileTree
