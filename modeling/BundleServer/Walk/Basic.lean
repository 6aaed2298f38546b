import BundleServer.Bundle.Error
import BundleServer.FileTree.Lemmas
import BundleServer.Fragment
import BundleServer.Walk.Order

/-!
# Lazy walks

A walk visits a directory and all below it, depth first, and gives a fragment for every regular file whose path ends
with the suffix. It looks at the tree only when it is asked for the next item. What it still has to visit is a list.
Visiting a directory puts the directory's entries, in order, in front of what remains.

Symbolic links below the root are never walked through, except that an entry listed as a directory is listed
again through its path. On a tree that does not change, the nodes that the pending visits can still reach become fewer
with every visit, so the next item or the end is always found (`reach_inside_lt`), unless the walk comes to a fifo that
was a regular file when it was listed: reading it does not return.
-/

namespace BundleServer

/-- A visit that a walk still has to make. -/
inductive Visit where
  /-- The directory from which the walk starts. -/
  | root (path : Path)
  /-- An entry, of the kind it had when its directory was listed. -/
  | entry (path : Path) (name : Bytes) (kind : FileTree.Kind)
  deriving DecidableEq, Repr

/-- What comes of a visit. -/
inductive Visited where
  | nothing
  | item (item : Item)
  /-- The entries of a directory, to be visited next. -/
  | inside (visits : List Visit)
  /-- The visit reads a fifo and does not return. -/
  | waits

/-- A walk: what it looks for, and what it still has to visit. -/
structure Walk where
  suffix : Bytes
  order : SiblingOrder
  pending : List Visit

namespace Walk

/-- Does the path end with the suffix? -/
def selects (suffix : Bytes) (path : Path) : Bool := suffix.isSuffixOf path.bytes

/-- Reads the fragment of a file. -/
def readFile (tree : FileTree) (path : Path) (name : Bytes) : Visited :=
  match tree.read path with
  | .content content => .item (.ok ⟨path, name, content⟩)
  | .fault fault => .item (.error (.read path (.access fault)))
  | .waits => .waits

/-- An error for an entry that could not be opened. -/
def notOpened (path : Path) (fault : FileTree.Fault) : Visited :=
  .item (.error (.read path (.opening path fault)))

/-- Visits a directory. It is listed as a whole when it is visited. In the order of the file system this is a
simplification: there a walk lists on while it is asked, so an entry that comes or goes meanwhile may or may not be
seen. -/
def visitDirectory (tree : FileTree) (order : SiblingOrder) (path : Path) : Visited :=
  match tree.list path with
  | .ok entries =>
    .inside ((order.arrange path entries).map fun entry => .entry (path.join entry.1) entry.1 entry.2)
  | .error fault => notOpened path fault

/-- Visits a link. It counts only if it leads to a regular file. -/
def visitLink (tree : FileTree) (suffix : Bytes) (path : Path) (name : Bytes) : Visited :=
  if selects suffix path then
    match tree.kind path with
    | .ok .file => readFile tree path name
    | .ok _ => .nothing
    | .error fault => .item (.error (.read path (.access fault)))
  else .nothing

/-- Visits an entry of a known kind. -/
def visitEntry (tree : FileTree) (suffix : Bytes) (order : SiblingOrder) (path : Path) (name : Bytes) :
    FileTree.Kind → Visited
  | .directory => visitDirectory tree order path
  | .link => visitLink tree suffix path name
  | .file => if selects suffix path then readFile tree path name else .nothing
  | .fifo => .nothing

/-- Makes a visit. A root that is a link is walked if it leads to a directory. -/
def visit (tree : FileTree) (suffix : Bytes) (order : SiblingOrder) : Visit → Visited
  | .entry path name kind => visitEntry tree suffix order path name kind
  | .root path =>
    let name := path.fileName?.getD path.bytes
    match tree.kindOfLast path with
    | .error fault => notOpened path fault
    | .ok .link => match tree.kind path with
      | .error fault => notOpened path fault
      | .ok .directory => visitDirectory tree order path
      | .ok _ => visitLink tree suffix path name
    | .ok kind => visitEntry tree suffix order path name kind

/-- How many nodes can be reached by walking through the path. -/
def reachOfPath (tree : FileTree) (path : Path) : Nat :=
  match tree.resolve .visitor path with
  | .ok spot => spot.node.size
  | .error _ => 1

/-- How many nodes a visit and those that come of it can reach. -/
def reach (tree : FileTree) : Visit → Nat
  | .root path => reachOfPath tree path
  | .entry path _ .directory => reachOfPath tree path
  | .entry _ _ _ => 1

/-- How many nodes visits can reach, each on its own. -/
def reachOfVisits (tree : FileTree) : List Visit → Nat
  | [] => 0
  | visit :: rest => reach tree visit + reachOfVisits tree rest

theorem reachOfVisits_append (tree : FileTree) (first second : List Visit) :
    reachOfVisits tree (first ++ second) = reachOfVisits tree first + reachOfVisits tree second := by
  induction first with
  | nil => simp [reachOfVisits]
  | cons visit rest ih =>
    simp only [List.cons_append, reachOfVisits, ih]
    omega

theorem reachOfVisits_of_perm (tree : FileTree) {visits others : List Visit} (h : visits.Perm others) :
    reachOfVisits tree visits = reachOfVisits tree others := by
  induction h with
  | nil => rfl
  | cons visit _ ih => simp only [reachOfVisits, ih]
  | swap visit other rest =>
    simp only [reachOfVisits]
    omega
  | trans _ _ first second => exact first.trans second

theorem size_pos (node : FileTree.Node) : 0 < node.size := by
  cases node <;> simp [FileTree.Node.size]

theorem reachOfPath_pos (tree : FileTree) (path : Path) : 0 < reachOfPath tree path := by
  unfold reachOfPath
  split
  · exact size_pos _
  · exact Nat.one_pos

theorem reach_pos (tree : FileTree) (visit : Visit) : 0 < reach tree visit := by
  unfold reach
  split
  · exact reachOfPath_pos ..
  · exact reachOfPath_pos ..
  · exact Nat.one_pos

/-- An entry of a directory reaches no more than the node under its name. -/
theorem reach_entry_le {tree : FileTree} {path : Path} {spot : FileTree.Spot}
    (reached : tree.resolve .visitor path = .ok spot) {access : FileTree.Access} {entries : FileTree.Entries}
    (directory : spot.node = .directory access entries) {entry : Bytes × FileTree.Node} (member : entry ∈ entries) :
    reach tree (.entry (path.join entry.1) entry.1 entry.2.kind) ≤ entry.2.size := by
  have positive := size_pos entry.2
  cases kind : entry.2.kind with
  | directory =>
    simp only [reach, reachOfPath]
    split
    · rename_i joined
      exact Nat.le_of_eq (congrArg FileTree.Node.size
        (FileTree.node_of_resolve_join reached directory member (by simp [kind]) joined))
    · exact positive
  | _ => exact positive

/-- What a visit to a directory lists. -/
theorem eq_of_visitDirectory_inside {tree : FileTree} {order : SiblingOrder} {path : Path} {visits : List Visit}
    (h : visitDirectory tree order path = .inside visits) :
    ∃ spot access entries, tree.resolve .visitor path = .ok spot ∧ spot.node = .directory access entries ∧
      visits = (order.arrange path (entries.map fun entry => (entry.1, entry.2.kind))).map
        fun entry => .entry (path.join entry.1) entry.1 entry.2 := by
  unfold visitDirectory at h
  split at h
  · rename_i listed
    simp only [FileTree.list, bind, Except.bind] at listed
    split at listed
    · simp at listed
    · rename_i spot reached
      split at listed
      · rename_i access entries directory
        split at listed
        · simp only [Except.ok.injEq] at listed
          simp only [Visited.inside.injEq] at h
          exact ⟨spot, access, entries, reached, directory, by rw [listed, h]⟩
        · simp at listed
      · simp at listed
  · simp [notOpened] at h

/-- Visits that come of a directory reach fewer nodes together than the directory. -/
theorem reach_inside_lt {tree : FileTree} {order : SiblingOrder} {path : Path} {visits : List Visit}
    (h : visitDirectory tree order path = .inside visits) :
    reachOfVisits tree visits < reachOfPath tree path := by
  obtain ⟨spot, access, entries, reached, directory, rfl⟩ := eq_of_visitDirectory_inside h
  have bound : ∀ inner : FileTree.Entries, (∀ entry ∈ inner, entry ∈ entries) →
      reachOfVisits tree (inner.map fun entry => .entry (path.join entry.1) entry.1 entry.2.kind) ≤
        FileTree.Node.sizeOfEntries inner := by
    intro inner within
    induction inner with
    | nil => simp [reachOfVisits]
    | cons entry rest ih =>
      have := reach_entry_le reached directory (within entry List.mem_cons_self)
      have := ih fun other member => within other (List.mem_cons_of_mem _ member)
      simp only [List.map_cons, reachOfVisits, FileTree.Node.sizeOfEntries]
      omega
  have whole : reachOfPath tree path = FileTree.Node.sizeOfEntries entries + 1 := by
    simp [reachOfPath, reached, directory, FileTree.Node.size]
  have ordered := (order.arrange_perm path (entries.map fun entry => (entry.1, entry.2.kind))).map
    fun entry => Visit.entry (path.join entry.1) entry.1 entry.2
  rw [reachOfVisits_of_perm tree ordered, List.map_map, whole]
  exact Nat.lt_succ_of_le (bound entries fun _ member => member)

theorem readFile_ne_inside {tree : FileTree} {path : Path} {name : Bytes} {visits : List Visit} :
    readFile tree path name ≠ .inside visits := by
  unfold readFile
  split <;> simp

/-- Whatever comes of a visit reaches fewer nodes. -/
theorem reach_visit_lt {tree : FileTree} {suffix : Bytes} {order : SiblingOrder} {v : Visit} {visits : List Visit}
    (h : visit tree suffix order v = .inside visits) : reachOfVisits tree visits < reach tree v := by
  have plain : ∀ {path name}, visitLink tree suffix path name ≠ .inside visits := by
    intro path name
    unfold visitLink
    split
    · split
      · exact readFile_ne_inside
      · simp
      · simp
    · simp
  have entry : ∀ {path name kind}, visitEntry tree suffix order path name kind = .inside visits →
      kind = .directory ∧ visitDirectory tree order path = .inside visits := by
    intro path name kind
    cases kind with
    | directory => simp [visitEntry]
    | link => simp [visitEntry, plain]
    | file =>
      simp only [visitEntry]
      split
      · exact fun read => absurd read readFile_ne_inside
      · simp
    | fifo => simp [visitEntry]
  cases v with
  | entry path name kind =>
    obtain ⟨rfl, inside⟩ := entry h
    exact reach_inside_lt inside
  | root path =>
    simp only [visit] at h
    split at h
    · simp [notOpened] at h
    · split at h
      · simp [notOpened] at h
      · exact reach_inside_lt h
      · exact absurd h plain
    · exact reach_inside_lt (entry h).2

/-- What a walk answers when it is asked for its next item. -/
inductive Answer where
  | item (item : Item)
  | ended
  /-- The call reads a fifo and does not return. -/
  | waits

/-- The item of an answer. -/
def Answer.item? : Answer → Option Item
  | .item given => some given
  | .ended | .waits => none

/-- An answer stands for its item. -/
instance : Coe Answer (Option Item) := ⟨Answer.item?⟩

/-- Makes visits until one gives an item. A visit that waits remains to be made. -/
def nextOf (tree : FileTree) (suffix : Bytes) (order : SiblingOrder) (pending : List Visit) :
    Answer × List Visit :=
  match pending with
  | [] => (.ended, [])
  | v :: rest =>
    match _outcome : visit tree suffix order v with
    | .item item => (.item item, rest)
    | .nothing => nextOf tree suffix order rest
    | .inside visits => nextOf tree suffix order (visits ++ rest)
    | .waits => (.waits, v :: rest)
termination_by reachOfVisits tree pending
decreasing_by
  · have := reach_pos tree v
    simp only [reachOfVisits]
    omega
  · have := reach_visit_lt _outcome
    simp only [reachOfVisits, reachOfVisits_append]
    omega

/-- The answer of the walk on the tree as it is now, and the walk behind it. -/
def next (tree : FileTree) (walk : Walk) : Answer × Walk :=
  let (answer, pending) := nextOf tree walk.suffix walk.order walk.pending
  (answer, { walk with pending })

theorem reach_nextOf_lt {tree : FileTree} {suffix : Bytes} {order : SiblingOrder} {pending rest : List Visit}
    {item : Item} (h : nextOf tree suffix order pending = (.item item, rest)) :
    reachOfVisits tree rest < reachOfVisits tree pending := by
  fun_induction nextOf tree suffix order pending generalizing rest with
  | case1 => simp at h
  | case2 v pending item' outcome =>
    have := reach_pos tree v
    simp only [Prod.mk.injEq] at h
    simp only [← h.2, reachOfVisits]
    omega
  | case3 v pending outcome ih =>
    have := ih h
    simp only [reachOfVisits]
    omega
  | case4 v pending visits outcome ih =>
    have := ih h
    have := reach_visit_lt outcome
    simp only [reachOfVisits, reachOfVisits_append] at *
    omega
  | case5 => simp at h

/-- The items that asking again and again gives, on a tree that does not change. Behind a call that waits there are
none. -/
def itemsOf (tree : FileTree) (suffix : Bytes) (order : SiblingOrder) (pending : List Visit) : List Item :=
  match _found : nextOf tree suffix order pending with
  | (.item item, rest) => item :: itemsOf tree suffix order rest
  | (.ended, _) => []
  | (.waits, _) => []
termination_by reachOfVisits tree pending
decreasing_by exact reach_nextOf_lt _found

/-- All remaining items of the walk on a tree that does not change. -/
def items (tree : FileTree) (walk : Walk) : List Item := itemsOf tree walk.suffix walk.order walk.pending

/-- Starts a walk. The root is looked at once, through links. -/
def start (tree : FileTree) (root : Path) (suffix : Bytes) (order : SiblingOrder) : Except BundleError Walk :=
  if suffix = [] then .error .emptySuffix
  else match tree.kind root with
    | .error fault => .error (.invalidRoot root (.access fault))
    | .ok .directory => .ok ⟨suffix, order, [.root root]⟩
    | .ok _ => .error (.invalidRoot root .notDirectory)

end Walk

end BundleServer
