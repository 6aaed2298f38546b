import BundleServer.Proofs.Path
import BundleServer.Proofs.Walk.Visits
import Mathlib.Data.List.Basic

/-!
# The plain recursion behind a walk

A walk keeps a list of pending visits and takes one after the other. `traverse` is the recursion that this list
unrolls: it goes down the nodes themselves, knows of each whether the directory around it can be searched, and looks
at the tree by path only where a symbolic link stands. The items of pending visits none of which waits are those of each
visit, one after the other (`itemsOf_eq_flatMap`), and the items of an entry are those of the recursion on its node
(`itemsOf_entry`).
-/

namespace BundleServer.Walk

variable (tree : FileTree) (suffix : Bytes)
  (arrange : Path → List (Bytes × FileTree.Kind) → List (Bytes × FileTree.Kind))

/-- The items of a regular file. -/
def itemsOfFile (readable : Bool) (path : Path) (name content : Bytes) : List Item :=
  if selects suffix path then
    [if readable then .ok ⟨path, name, content⟩ else .error (.read path (.access .permissionDenied))]
  else []

/-- The items of what comes of a visit. A visit gives at most one itself. -/
def itemsOfVisited : Visited → List Item
  | .item item => [item]
  | .nothing | .inside _ | .waits => []

/-- The items of a symbolic link. -/
def itemsOfLink (path : Path) (name : Bytes) : List Item :=
  if selects suffix path then
    match tree.kind path with
    | .ok .file => itemsOfVisited (readFile tree path name)
    | .ok _ => []
    | .error fault => [.error (.read path (.access fault))]
  else []

/-- What a directory lists of its entries. -/
def listing (entries : FileTree.Entries) : List (Bytes × FileTree.Kind) :=
  entries.map fun entry => (entry.1, entry.2.kind)

theorem map_fst_listing (entries : FileTree.Entries) : (listing entries).map Prod.fst = entries.map Prod.fst := by
  rw [listing, List.map_map]
  rfl

mutual

/-- The items of a node and all below it. A node can be reached if the directory around it can be searched. -/
def traverse (reachable : Bool) (path : Path) (name : Bytes) : FileTree.Node → List Item
  | .file access content => itemsOfFile suffix (reachable && access.read) path name content
  | .link _ => itemsOfLink tree suffix path name
  | .fifo _ => []
  | .directory access entries =>
    if reachable && access.read then
      (arrange path (listing entries)).flatMap fun entry =>
        ((traverseEntries access.search path entries).lookup entry.1).getD []
    else [.error (.read path (.opening path .permissionDenied))]

/-- For each name in a directory the items of its node. -/
def traverseEntries (reachable : Bool) (path : Path) : List (Bytes × FileTree.Node) → List (Bytes × List Item)
  | [] => []
  | (name, node) :: rest =>
    (name, traverse reachable (path.join name) name node) :: traverseEntries reachable path rest

end

variable {tree suffix arrange}

/-- Whether a joined path ends with a suffix is seen from the name, if no separator is in the suffix. -/
theorem selects_join {path : Path} (filled : path.bytes ≠ []) {name : Bytes} (plain : Path.separator ∉ name)
    (whole : Path.separator ∉ suffix) : selects suffix (path.join name) = suffix.isSuffixOf name := by
  rw [selects, Bool.eq_iff_iff, List.isSuffixOf_iff_suffix, List.isSuffixOf_iff_suffix]
  constructor
  · exact Path.suffix_of_suffix_join filled plain whole
  · intro ends
    obtain ⟨front, joined⟩ := Path.exists_front_of_join filled plain
    rw [joined]
    exact ends.trans ((List.suffix_cons _ _).trans (List.suffix_append _ _))

theorem lookup_traverseEntries {reachable : Bool} {path : Path} {entries : FileTree.Entries}
    (distinct : (entries.map Prod.fst).Nodup) {entry : Bytes × FileTree.Node} (member : entry ∈ entries) :
    (traverseEntries tree suffix arrange reachable path entries).lookup entry.1 =
      some (traverse tree suffix arrange reachable (path.join entry.1) entry.1 entry.2) := by
  induction entries with
  | nil => simp at member
  | cons head rest ih =>
    obtain ⟨name, node⟩ := head
    simp only [List.map_cons, List.nodup_cons] at distinct
    rw [traverseEntries]
    rcases List.mem_cons.1 member with rfl | member
    · exact List.lookup_cons_self
    · have differs : entry.1 ≠ name := by
        intro same
        exact distinct.1 (List.mem_map.2 ⟨entry, member, same⟩)
      rw [List.lookup_cons, beq_eq_false_iff_ne.2 differs]
      exact ih distinct.2 member

section Items

variable {order : SiblingOrder}

theorem itemsOf_nil : itemsOf tree suffix order [] = [] := by
  rw [itemsOf]
  split
  · rename_i found
    simp [nextOf] at found
  · rfl
  · rfl

theorem itemsOf_of_nextOf_eq {visits others : List Visit}
    (same : nextOf tree suffix order visits = nextOf tree suffix order others) :
    itemsOf tree suffix order visits = itemsOf tree suffix order others := by
  rw [itemsOf, itemsOf, same]

theorem itemsOf_of_nothing {v : Visit} {rest : List Visit} (outcome : visit tree suffix order v = .nothing) :
    itemsOf tree suffix order (v :: rest) = itemsOf tree suffix order rest :=
  itemsOf_of_nextOf_eq (nextOf_of_nothing outcome)

theorem itemsOf_of_item {v : Visit} {rest : List Visit} {item : Item}
    (outcome : visit tree suffix order v = .item item) :
    itemsOf tree suffix order (v :: rest) = item :: itemsOf tree suffix order rest := by
  have found : nextOf tree suffix order (v :: rest) = (.item item, rest) := nextOf_of_item outcome
  rw [itemsOf]
  split <;> simp_all

theorem itemsOf_of_inside {v : Visit} {rest visits : List Visit}
    (outcome : visit tree suffix order v = .inside visits) :
    itemsOf tree suffix order (v :: rest) = itemsOf tree suffix order (visits ++ rest) :=
  itemsOf_of_nextOf_eq (nextOf_of_inside outcome)

/-- The items of some visits that do not wait and of others behind them do not mix. The induction is on what the first
visits can still reach, since a directory puts its entries in their place. -/
theorem itemsOf_append {first : List Visit} (free : NoneWaits tree suffix first) (second : List Visit) :
    itemsOf tree suffix order (first ++ second) =
      itemsOf tree suffix order first ++ itemsOf tree suffix order second := by
  induction reached : reachOfVisits tree first using Nat.strongRecOn generalizing first with
  | ind reached ih =>
    subst reached
    cases first with
    | nil => simp [itemsOf_nil]
    | cons v rest =>
      have positive := reach_pos tree v
      obtain ⟨returns, others⟩ := noneWaits_cons_iff.1 free
      cases outcome : visit tree suffix order v with
      | nothing =>
        rw [List.cons_append, itemsOf_of_nothing outcome, itemsOf_of_nothing outcome]
        refine ih _ ?_ others rfl
        simp only [reachOfVisits]
        omega
      | item item =>
        rw [List.cons_append, itemsOf_of_item outcome, itemsOf_of_item outcome, List.cons_append]
        congr 1
        refine ih _ ?_ others rfl
        simp only [reachOfVisits]
        omega
      | inside visits =>
        have fewer := reach_visit_lt outcome
        rw [List.cons_append, itemsOf_of_inside outcome, itemsOf_of_inside outcome, ← List.append_assoc]
        refine ih _ ?_ (noneWaits_append_iff.2 ⟨noneWaits_of_visit_inside outcome, others⟩) rfl
        simp only [reachOfVisits, reachOfVisits_append]
        omega
      | waits => exact absurd (visit_eq_waits_iff.1 outcome) returns

theorem itemsOf_eq_flatMap {visits : List Visit} (free : NoneWaits tree suffix visits) :
    itemsOf tree suffix order visits = visits.flatMap fun v => itemsOf tree suffix order [v] := by
  induction visits with
  | nil => exact itemsOf_nil
  | cons v rest ih =>
    obtain ⟨returns, others⟩ := noneWaits_cons_iff.1 free
    calc itemsOf tree suffix order (v :: rest)
        = itemsOf tree suffix order ([v] ++ rest) := rfl
      _ = itemsOf tree suffix order [v] ++ itemsOf tree suffix order rest :=
        itemsOf_append (List.forall_mem_singleton.2 returns) rest
      _ = (v :: rest).flatMap fun v => itemsOf tree suffix order [v] := by rw [ih others, List.flatMap_cons]

/-- A directory gives the items of its entries in order, or the error that it could not be opened. -/
theorem itemsOf_directory {v : Visit} {path : Path}
    (comes : visit tree suffix order v = visitDirectory tree order path)
    {spot : FileTree.Spot} (reached : tree.resolve .visitor path = .ok spot) {access : FileTree.Access}
    {entries : FileTree.Entries} (directory : spot.node = .directory access entries) (name : Bytes)
    (inner : ∀ entry ∈ entries, itemsOf tree suffix order [.entry (path.join entry.1) entry.1 entry.2.kind] =
      traverse tree suffix order.arrange access.search (path.join entry.1) entry.1 entry.2) :
    itemsOf tree suffix order [v] =
      traverse tree suffix order.arrange true path name (.directory access entries) := by
  have formed := (FileTree.wellFormed_of_resolve reached).1
  rw [directory, FileTree.Node.wellFormed_directory] at formed
  have listed : tree.list path =
      if access.read then .ok (listing entries) else .error .permissionDenied := by
    simp [FileTree.list, reached, directory, bind, Except.bind, listing]
  rw [traverse]
  cases readable : access.read with
  | false =>
    have outcome : visit tree suffix order v = .item (.error (.read path (.opening path .permissionDenied))) := by
      simp [comes, visitDirectory, listed, readable, notOpened]
    rw [itemsOf_of_item outcome, itemsOf_nil]
    rfl
  | true =>
    have outcome : visit tree suffix order v = .inside ((order.arrange path (listing entries)).map
        fun entry => .entry (path.join entry.1) entry.1 entry.2) := by
      simp [comes, visitDirectory, listed, readable]
    rw [itemsOf_of_inside outcome, List.append_nil, itemsOf_eq_flatMap (noneWaits_of_visit_inside outcome),
      List.flatMap_map]
    simp only [Bool.and_self, if_true]
    refine List.flatMap_congr fun listed member => ?_
    obtain ⟨entry, held, rfl⟩ := List.mem_map.1 ((order.arrange_perm path (listing entries)).mem_iff.1 member)
    rw [inner entry held, lookup_traverseEntries formed.1 held, Option.getD_some]

/-- A visit that reads and does not wait gives one item. -/
theorem itemsOf_of_read {v : Visit} {path : Path} {name : Bytes}
    (comes : visit tree suffix order v = readFile tree path name) (returns : readFile tree path name ≠ .waits) :
    itemsOf tree suffix order [v] = itemsOfVisited (readFile tree path name) := by
  cases read : readFile tree path name with
  | item item => rw [itemsOf_of_item (comes.trans read), itemsOf_nil, itemsOfVisited]
  | nothing => rw [itemsOf_of_nothing (comes.trans read), itemsOf_nil, itemsOfVisited]
  | inside visits => exact absurd read readFile_ne_inside
  | waits => exact absurd read returns

theorem itemsOf_link {v : Visit} {path : Path} {name : Bytes}
    (comes : visit tree suffix order v = visitLink tree suffix path name) :
    itemsOf tree suffix order [v] = itemsOfLink tree suffix path name := by
  rw [itemsOfLink]
  by_cases selected : selects suffix path = true
  · rw [visitLink, if_pos selected] at comes
    rw [if_pos selected]
    cases resolved : tree.kind path with
    | error fault =>
      rw [resolved] at comes
      rw [itemsOf_of_item comes, itemsOf_nil]
    | ok kind =>
      rw [resolved] at comes
      cases kind with
      | file => exact itemsOf_of_read comes (readFile_ne_waits_of_file resolved)
      | _ => rw [itemsOf_of_nothing comes, itemsOf_nil]
  · rw [visitLink, if_neg selected] at comes
    rw [if_neg selected, itemsOf_of_nothing comes, itemsOf_nil]

theorem itemsOf_file {path : Path} {name content : Bytes} {readable : Bool}
    (held : tree.read path = if readable then .content content else .fault .permissionDenied) :
    itemsOf tree suffix order [.entry path name .file] = itemsOfFile suffix readable path name content := by
  have given : readFile tree path name =
      .item (if readable then .ok ⟨path, name, content⟩ else .error (.read path (.access .permissionDenied))) := by
    cases readable <;> simp [readFile, held]
  rw [itemsOfFile]
  by_cases selected : selects suffix path = true
  · have outcome : visit tree suffix order (.entry path name .file) = readFile tree path name := by
      simp [visit, visitEntry, selected]
    rw [if_pos selected, itemsOf_of_item (outcome.trans given), itemsOf_nil]
  · have outcome : visit tree suffix order (.entry path name .file) = .nothing := by
      simp [visit, visitEntry, selected]
    rw [if_neg selected, itemsOf_of_nothing outcome, itemsOf_nil]

/-- The items of an entry are those of the recursion on its node. The induction is on the size of the node: whatever
directory holds the entry, its own entries are smaller. -/
theorem itemsOf_entry {path : Path} {spot : FileTree.Spot} (reached : tree.resolve .visitor path = .ok spot)
    {access : FileTree.Access} {entries : FileTree.Entries} (directory : spot.node = .directory access entries)
    {name : Bytes} {node : FileTree.Node} (member : (name, node) ∈ entries) :
    itemsOf tree suffix order [.entry (path.join name) name node.kind] =
      traverse tree suffix order.arrange access.search (path.join name) name node := by
  induction size : node.size using Nat.strongRecOn generalizing path spot access entries name node with
  | ind bound ih =>
    have formed := (FileTree.wellFormed_of_resolve reached).1
    rw [directory, FileTree.Node.wellFormed_directory] at formed
    have named : FileTree.isName name = true := (formed.2 _ member).1
    have held := FileTree.Entries.find?_of_mem formed.1 member
    have isDirectory : spot.node.kind = .directory := by rw [directory]; rfl
    have refused (closed : access.search = false) :
        tree.resolve .visitor (path.join name) = .error .permissionDenied :=
      FileTree.resolve_join_of_refused reached isDirectory named (FileTree.child_of_not_searchable directory closed)
    have found (opened : access.search = true) (plain : node.kind ≠ .link) :
        tree.resolve .visitor (path.join name) = .ok ⟨node, (name, spot.node) :: spot.above⟩ :=
      FileTree.resolve_join_of_child reached named (FileTree.child_of_searchable directory opened named held) plain
    cases node with
    | fifo access' => exact itemsOf_of_nothing rfl |>.trans itemsOf_nil
    | link target => exact itemsOf_link rfl
    | file access' content =>
      refine itemsOf_file ?_
      cases searchable : access.search with
      | false => simp [FileTree.read, refused searchable]
      | true => simp [FileTree.read, found searchable (by simp [FileTree.Node.kind]), FileTree.Node.reading]
    | directory access' entries' =>
      have comes : visit tree suffix order (.entry (path.join name) name .directory) =
          visitDirectory tree order (path.join name) := rfl
      cases searchable : access.search with
      | false =>
        have outcome : visit tree suffix order (.entry (path.join name) name .directory) =
            .item (.error (.read (path.join name) (.opening (path.join name) .permissionDenied))) := by
          simp [comes, visitDirectory, FileTree.list, refused searchable, bind, Except.bind, notOpened]
        rw [FileTree.Node.kind, itemsOf_of_item outcome, itemsOf_nil, traverse]
        rfl
      | true =>
        have arrived := found searchable (by simp [FileTree.Node.kind])
        refine itemsOf_directory comes arrived rfl name fun inside within => ?_
        have smaller : inside.2.size < bound := size ▸ FileTree.Node.size_lt_of_mem within
        exact ih inside.2.size smaller arrived rfl within rfl

/-- A root that leads to a directory is walked, whether it names the directory or a link. -/
theorem visit_root {root : Path} (directory : tree.kind root = .ok .directory) :
    visit tree suffix order (.root root) = visitDirectory tree order root := by
  unfold FileTree.kind at directory
  cases reached : tree.resolve .visitor root with
  | error fault => simp [reached, Except.map] at directory
  | ok spot =>
    have isDirectory : spot.node.kind = .directory := by simpa [reached, Except.map] using directory
    obtain ⟨last, named, link | rfl⟩ := FileTree.resolveLast_of_resolve reached
    · simp [visit, FileTree.kindOfLast, FileTree.kind, named, link, reached, isDirectory, Except.map]
    · simp [visit, FileTree.kindOfLast, named, isDirectory, Except.map, visitEntry]

end Items

variable (tree suffix arrange) in
/-- The items of the plain recursion from a root. -/
def traversal (root : Path) : List Item :=
  match tree.resolve .visitor root with
  | .ok spot => traverse tree suffix arrange true root (root.fileName?.getD root.bytes) spot.node
  | .error _ => []

/-- What the start of a walk says of its root. -/
theorem start_eq_ok_iff {root : Path} {order : SiblingOrder} {walk : Walk} :
    start tree root suffix order = .ok walk ↔
      suffix ≠ [] ∧ tree.kind root = .ok .directory ∧ walk = ⟨suffix, order, [.root root]⟩ := by
  unfold start
  by_cases empty : suffix = []
  · simp [empty]
  · rw [if_neg empty]
    cases tree.kind root with
    | error fault => simp
    | ok kind => cases kind <;> simp [empty, eq_comm]

/-- A walk gives the items of the plain recursion from its root. -/
theorem items_of_start {root : Path} {order : SiblingOrder} {walk : Walk}
    (started : start tree root suffix order = .ok walk) :
    walk.items tree = traversal tree suffix order.arrange root := by
  obtain ⟨-, directory, rfl⟩ := start_eq_ok_iff.1 started
  have comes : visit tree suffix order (.root root) = visitDirectory tree order root := visit_root directory
  unfold FileTree.kind at directory
  cases reached : tree.resolve .visitor root with
  | error fault => simp [reached, Except.map] at directory
  | ok spot =>
    have isDirectory : spot.node.kind = .directory := by simpa [reached, Except.map] using directory
    cases node : spot.node with
    | directory access entries =>
      rw [items, traversal, reached]
      simp only [node]
      exact itemsOf_directory comes reached node _ fun entry member => itemsOf_entry reached node member
    | _ => simp [node, FileTree.Node.kind] at isDirectory

/-- Do two ways to arrange siblings put all entries with different names in the same sequence? -/
def Agree (first second : Path → List (Bytes × FileTree.Kind) → List (Bytes × FileTree.Kind)) : Prop :=
  ∀ path entries, (entries.map Prod.fst).Nodup → (∀ entry ∈ entries, FileTree.isName entry.1 = true) →
    first path entries = second path entries

section Arrangements

variable {first second : Path → List (Bytes × FileTree.Kind) → List (Bytes × FileTree.Kind)}

mutual

/-- The recursion arranges entries with different names only. -/
theorem traverse_congr (agree : Agree first second) (reachable : Bool) (path : Path) (name : Bytes)
    (node : FileTree.Node) (formed : node.WellFormed) :
    traverse tree suffix first reachable path name node = traverse tree suffix second reachable path name node := by
  cases node with
  | directory access entries =>
    rw [FileTree.Node.wellFormed_directory] at formed
    have same := agree path (listing entries) (by rw [map_fst_listing]; exact formed.1) (by
      intro listed member
      obtain ⟨entry, held, rfl⟩ := List.mem_map.1 member
      exact (formed.2 entry held).1)
    rw [traverse, traverse, same, traverseEntries_congr agree access.search path entries formed.2]
  | _ => simp only [traverse]

theorem traverseEntries_congr (agree : Agree first second) (reachable : Bool) (path : Path)
    (entries : List (Bytes × FileTree.Node))
    (formed : ∀ entry ∈ entries, FileTree.isName entry.1 = true ∧ entry.2.WellFormed) :
    traverseEntries tree suffix first reachable path entries =
      traverseEntries tree suffix second reachable path entries := by
  match entries with
  | [] => rfl
  | (name, node) :: rest =>
    simp only [List.mem_cons, forall_eq_or_imp] at formed
    rw [traverseEntries, traverseEntries, traverse_congr agree reachable (path.join name) name node formed.1.2,
      traverseEntries_congr agree reachable path rest formed.2]

end

theorem traversal_congr (agree : Agree first second) (root : Path) :
    traversal tree suffix first root = traversal tree suffix second root := by
  unfold traversal
  split
  · rename_i spot reached
    exact traverse_congr agree _ _ _ _ (FileTree.wellFormed_of_resolve reached).1
  · rfl

end Arrangements

end BundleServer.Walk
