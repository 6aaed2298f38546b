import BundleServer.Proofs.Walk.Session

/-!
# Walks end

Once the tree stops changing, a call of the walk makes only so many visits. A pending visit goes through its path,
whatever has become of the node that was listed there, and the path leads to some node of the tree as it is now. So
each pending visit reaches at most the whole tree, also through links that lead back to a directory above
(`reachOfVisits_le`), and every visit leaves less to be reached. This bounds the visits of a single call as well as the
items of all calls together.

Whether the calls return is another matter. A walk reads what was listed as a regular file without looking at it again,
and where a fifo has taken its place, the call waits for somebody who writes. This is the only way in which a walk fails
to come to its end (`answers_end`).
-/

namespace BundleServer

namespace FileTree

/-- Has no node at the spot or above it more nodes below it than the given number? -/
structure Spot.FitsIn (size : Nat) (spot : Spot) : Prop where
  node : spot.node.size ≤ size
  above : ∀ entry ∈ spot.above, entry.2.size ≤ size

theorem Spot.kept_fitsIn (caller : Caller) (size : Nat) : Spot.Kept caller (Spot.FitsIn size) where
  outermost {spot} fits := by
    unfold Spot.outermost
    split
    · exact fits
    · rename_i last
      exact ⟨fits.above _ (List.mem_of_getLast? last), by simp⟩
  up {spot} fits := by
    unfold Spot.up
    split
    · exact fits
    · rename_i name parent above split
      have higher := fits.above
      rw [split, List.forall_mem_cons] at higher
      exact ⟨higher.1, higher.2⟩
  child {spot name target} fits found := by
    obtain ⟨access, entries, node, directory, held, rfl⟩ := Spot.eq_of_child found
    have whole := fits.node
    rw [directory] at whole
    have smaller : node.size < size := (Node.size_lt_of_mem (Entries.mem_of_find? held)).trans_le whole
    exact ⟨smaller.le, List.forall_mem_cons.2 ⟨fits.node, fits.above⟩⟩

theorem fitsIn_start (tree : FileTree) : tree.start.FitsIn tree.top.size := by
  refine ⟨Nat.le_refl _, fun entry member => ?_⟩
  rw [start, List.mem_singleton] at member
  subst member
  exact Walk.size_pos tree.top

/-- No path leads to more nodes than the tree has. -/
theorem size_of_resolve {tree : FileTree} {caller : Caller} {path : Path} {spot : Spot}
    (reached : tree.resolve caller path = .ok spot) : spot.node.size ≤ tree.top.size := by
  obtain ⟨-, -, links, arrived⟩ := resolve_eq_ok_iff.1 reached
  exact ((Spot.kept_fitsIn caller tree.top.size).of_descend (fitsIn_start tree) arrived).node

end FileTree

namespace Walk

variable {tree : FileTree} {suffix : Bytes} {order : SiblingOrder}

theorem reachOfPath_le (tree : FileTree) (path : Path) : reachOfPath tree path ≤ tree.top.size := by
  unfold reachOfPath
  split
  · rename_i spot reached
    exact FileTree.size_of_resolve reached
  · exact size_pos tree.top

theorem reach_le (tree : FileTree) (visit : Visit) : reach tree visit ≤ tree.top.size := by
  unfold reach
  split
  · exact reachOfPath_le tree _
  · exact reachOfPath_le tree _
  · exact size_pos tree.top

/-- Each pending visit reaches at most the whole tree. -/
theorem reachOfVisits_le (tree : FileTree) (visits : List Visit) :
    reachOfVisits tree visits ≤ visits.length * tree.top.size := by
  induction visits with
  | nil => exact Nat.zero_le _
  | cons visit rest ih =>
    have first := reach_le tree visit
    rw [reachOfVisits, List.length_cons, Nat.succ_mul]
    omega

/-- The loop behind the next item, broken off after so many visits. It gives nothing if they are not enough. -/
def nextOfWithin (tree : FileTree) (suffix : Bytes) (order : SiblingOrder) :
    Nat → List Visit → Option (Answer × List Visit)
  | _, [] => some (.ended, [])
  | 0, _ :: _ => none
  | visits + 1, v :: rest =>
    match visit tree suffix order v with
    | .item item => some (.item item, rest)
    | .nothing => nextOfWithin tree suffix order visits rest
    | .inside entries => nextOfWithin tree suffix order visits (entries ++ rest)
    | .waits => some (.waits, v :: rest)

/-- The answer of the walk and the walk behind it, if so many visits are enough to find them. -/
def nextWithin (visits : Nat) (tree : FileTree) (walk : Walk) : Option (Answer × Walk) :=
  (nextOfWithin tree walk.suffix walk.order visits walk.pending).map fun (answer, pending) =>
    (answer, { walk with pending })

/-- As many visits as the pending ones can reach nodes are enough. -/
theorem nextOfWithin_eq {visits : Nat} {pending : List Visit} (enough : reachOfVisits tree pending ≤ visits) :
    nextOfWithin tree suffix order visits pending = some (nextOf tree suffix order pending) := by
  induction visits generalizing pending with
  | zero =>
    cases pending with
    | nil => rw [nextOfWithin, nextOf]
    | cons v rest =>
      have positive := reach_pos tree v
      rw [reachOfVisits] at enough
      omega
  | succ visits ih =>
    cases pending with
    | nil => rw [nextOfWithin, nextOf]
    | cons v rest =>
      have positive := reach_pos tree v
      rw [reachOfVisits] at enough
      rw [nextOfWithin, nextOf]
      cases outcome : visit tree suffix order v with
      | item item => rfl
      | waits => rfl
      | nothing => exact ih (by omega)
      | inside entries =>
        have fewer := reach_visit_lt outcome
        have remaining : reachOfVisits tree (entries ++ rest) ≤ visits := by
          rw [reachOfVisits_append]
          omega
        exact ih remaining

theorem nextWithin_eq {visits : Nat} {walk : Walk} (enough : reachOfVisits tree walk.pending ≤ visits) :
    walk.nextWithin visits tree = some (walk.next tree) := by
  rw [nextWithin, nextOfWithin_eq enough]
  rfl

/-- A directory with a file and a link back to the directory. -/
def ringTree : FileTree where
  top := .directory .ofDirectory
    [(Utf8.encode "app", .directory .ofDirectory
        [(Utf8.encode "a.js", .file .ofFile (Utf8.encode "1")), (Utf8.encode "sub", .link (.ofString "."))])]
  wellFormed := by
    simp only [FileTree.Node.WellFormed, FileTree.Node.WellFormedEntries]
    decide

-- What was listed as a directory has become the link: its entries are visited once more, and the link among them is
-- only looked at.
example :
    nextOfWithin ringTree (Utf8.encode ".js") .filesystem 4
        [.entry (.ofString "app/sub") (Utf8.encode "sub") .directory] =
      some (.item (.ok ⟨.ofString "app/sub/a.js", Utf8.encode "a.js", Utf8.encode "1"⟩),
        [.entry (.ofString "app/sub/sub") (Utf8.encode "sub") .link]) := by
  rfl

/-- A call leaves no more to be reached than there was. -/
theorem reach_nextOf_le {pending rest : List Visit} {answer : Answer}
    (found : nextOf tree suffix order pending = (answer, rest)) :
    reachOfVisits tree rest ≤ reachOfVisits tree pending := by
  fun_induction nextOf tree suffix order pending with
  | case1 =>
    obtain ⟨-, rfl⟩ := Prod.mk.inj found
    exact Nat.le_refl _
  | case2 v pending item outcome =>
    obtain ⟨-, rfl⟩ := Prod.mk.inj found
    exact Nat.le_add_left _ _
  | case3 v pending outcome ih => exact (ih found).trans (Nat.le_add_left _ _)
  | case4 v pending visits outcome ih =>
    have fewer := ih found
    have inside := reach_visit_lt outcome
    rw [reachOfVisits_append] at fewer
    rw [reachOfVisits]
    omega
  | case5 v pending outcome =>
    obtain ⟨-, rfl⟩ := Prod.mk.inj found
    exact Nat.le_refl _

theorem reach_next_le (tree : FileTree) (walk : Walk) :
    reachOfVisits tree (walk.next tree).2.pending ≤ reachOfVisits tree walk.pending :=
  reach_nextOf_le (Prod.eta _).symm

/-- Every item takes at least one of the nodes that can be reached. -/
theorem length_itemsOf_le (pending : List Visit) :
    (itemsOf tree suffix order pending).length ≤ reachOfVisits tree pending := by
  fun_induction itemsOf tree suffix order pending with
  | case1 pending item rest found ih =>
    have fewer := reach_nextOf_lt found
    rw [List.length_cons]
    omega
  | case2 => exact Nat.zero_le _
  | case3 => exact Nat.zero_le _

theorem noneWaits_next_iff (tree : FileTree) (walk : Walk) :
    NoneWaits tree (walk.next tree).2.suffix (walk.next tree).2.pending ↔
      NoneWaits tree walk.suffix walk.pending :=
  noneWaits_iff_of_nextOf (Prod.eta _).symm

end Walk

namespace Session

/-- Items asked for by their numbers, and by numbers behind the last of them. -/
theorem map_getElem?_range {α : Type} (items : List α) (more : Nat) :
    (List.range (items.length + more)).map (items[·]?) = items.map some ++ List.replicate more none := by
  induction items with
  | nil => simp [List.map_const']
  | cons item rest ih =>
    have longer : (item :: rest).length + more = rest.length + more + 1 := by
      rw [List.length_cons]
      omega
    rw [longer, List.range_succ_eq_map, List.map_cons, List.map_map, List.map_cons, List.cons_append, ← ih]
    rfl

/-- The session after some turns. -/
def after (session : Session) (turns : List Turn) : Session := turns.foldl take session

/-- Calls on a tree that does not change leave no more to be reached, and a visit that waits if there is one. -/
theorem after_replicate_ask (tree : FileTree) (walk : Walk) (calls : Nat) :
    let later := (after ⟨tree, walk⟩ (List.replicate calls .ask)).walk
    Walk.reachOfVisits tree later.pending ≤ Walk.reachOfVisits tree walk.pending ∧
      (Walk.NoneWaits tree later.suffix later.pending ↔ Walk.NoneWaits tree walk.suffix walk.pending) := by
  induction calls generalizing walk with
  | zero => exact ⟨Nat.le_refl _, Iff.rfl⟩
  | succ calls ih =>
    obtain ⟨fewer, same⟩ := ih (walk.next tree).2
    exact ⟨Nat.le_trans fewer (Walk.reach_next_le tree walk), same.trans (Walk.noneWaits_next_iff tree walk)⟩

section Waiting

variable {tree : FileTree} {walk : Walk} (waits : ¬Walk.NoneWaits tree walk.suffix walk.pending)

include waits

/-- A call comes to the visit that waits. The induction is on what can still be reached, which every item makes
less. -/
theorem exists_next_eq_waits :
    ∃ calls, ((after ⟨tree, walk⟩ (List.replicate calls .ask)).walk.next tree).1 = .waits := by
  induction reached : Walk.reachOfVisits tree walk.pending using Nat.strongRecOn generalizing walk with
  | ind bound ih =>
    subst reached
    cases found : Walk.nextOf tree walk.suffix walk.order walk.pending with
    | mk answer rest =>
      cases answer with
      | item item =>
        have others : ¬Walk.NoneWaits tree walk.suffix rest := mt (Walk.noneWaits_iff_of_nextOf found).1 waits
        obtain ⟨calls, last⟩ := @ih _ (Walk.reach_nextOf_lt found) { walk with pending := rest } others rfl
        refine ⟨calls + 1, ?_⟩
        simpa only [after, List.replicate_succ, List.foldl_cons, take, Walk.next, found] using last
      | ended => exact absurd (Walk.noneWaits_of_nextOf_ended found) waits
      | waits => exact ⟨0, by simp [after, Walk.next, found]⟩

/-- As long as a pending visit waits, the walk does not come to its end. -/
theorem none_not_mem_answers (calls : Nat) : none ∉ answers ⟨tree, walk⟩ (List.replicate calls .ask) := by
  induction calls generalizing walk with
  | zero => exact List.not_mem_nil
  | succ calls ih =>
    have later := ih (mt (Walk.noneWaits_next_iff tree walk).1 waits)
    rw [List.replicate_succ, answers]
    split
    · simpa [take] using later
    · rename_i ended
      exact absurd (Walk.noneWaits_of_nextOf_ended (Prod.ext ended rfl)) waits
    · exact List.not_mem_nil

end Waiting

/-- Every call of a walk returns, and it comes to its end, if the tree stays as it was when the walk was started. -/
theorem answers_of_start {tree : FileTree} {root : Path} {suffix : Bytes} {order : SiblingOrder} {walk : Walk}
    (started : Walk.start tree root suffix order = .ok walk) (more : Nat) :
    answers ⟨tree, walk⟩ (List.replicate ((walk.items tree).length + more) .ask) =
      (walk.items tree).map some ++ List.replicate more none := by
  obtain ⟨-, -, rfl⟩ := Walk.start_eq_ok_iff.1 started
  rw [answers_replicate (Walk.noneWaits_root root), map_getElem?_range]

/-- How a walk ends, wherever some turns have led it, and whatever tree it finds from then on. No call makes more visits
than the tree has nodes for each visit that was pending. If none of these visits comes to a fifo in the place of a
regular file, every call returns, and after at most so many items there is never one again. If one of them does, some
call does not return, and the walk does not come to its end. -/
theorem answers_end (session : Session) (turns : List Turn) (current : FileTree) :
    let reached := (session.after turns).walk
    let visits := reached.pending.length * current.top.size
    let later (calls : Nat) := (after ⟨current, reached⟩ (List.replicate calls .ask)).walk
    (∀ calls, (later calls).nextWithin visits current = some ((later calls).next current)) ∧
      (Walk.NoneWaits current reached.suffix reached.pending ↔
        ∀ calls, ((later calls).next current).1 ≠ .waits) ∧
      (Walk.NoneWaits current reached.suffix reached.pending ↔
        ∃ items : List Item, items.length ≤ visits ∧ ∀ more,
          answers ⟨current, reached⟩ (List.replicate (items.length + more) .ask) =
            items.map some ++ List.replicate more none) := by
  intro reached visits later
  have bound : Walk.reachOfVisits current reached.pending ≤ visits := Walk.reachOfVisits_le current reached.pending
  refine ⟨fun calls => ?_, ⟨fun free calls => ?_, fun returns => ?_⟩, ⟨fun free => ?_, fun ended => ?_⟩⟩
  · exact Walk.nextWithin_eq (Nat.le_trans (after_replicate_ask current reached calls).1 bound)
  · exact (Walk.next_eq ((after_replicate_ask current reached calls).2.2 free)).1
  · by_contra waits
    obtain ⟨calls, last⟩ := exists_next_eq_waits waits
    exact returns calls last
  · refine ⟨reached.items current, Nat.le_trans (Walk.length_itemsOf_le reached.pending) bound, fun more => ?_⟩
    rw [answers_replicate free, map_getElem?_range]
  · by_contra waits
    obtain ⟨items, -, given⟩ := ended
    refine none_not_mem_answers waits (items.length + 1) ?_
    simp [given 1]

/-- A directory with two files. -/
def pairTree : FileTree where
  top := .directory .ofDirectory
    [(Utf8.encode "r", .directory .ofDirectory
        [(Utf8.encode "a.js", .file .ofFile (Utf8.encode "1")), (Utf8.encode "b.js", .file .ofFile (Utf8.encode "2"))])]
  wellFormed := by
    simp only [FileTree.Node.WellFormed, FileTree.Node.WellFormedEntries]
    decide

/-- Both files are listed when the first one is given. -/
theorem next_pairTree :
    Walk.next pairTree ⟨Utf8.encode ".js", .lexicographic, [.root (.ofString "r")]⟩ =
      (.item (.ok ⟨.ofString "r/a.js", Utf8.encode "a.js", Utf8.encode "1"⟩),
        ⟨Utf8.encode ".js", .lexicographic, [.entry (.ofString "r/b.js") (Utf8.encode "b.js") .file]⟩) := by
  let entries : List (Bytes × FileTree.Kind) := [(Utf8.encode "a.js", .file), (Utf8.encode "b.js", .file)]
  have listed : pairTree.list (.ofString "r") = .ok entries := rfl
  have total : SiblingOrder.lexicographic.IsTotal := trivial
  have distinct : (entries.map Prod.fst).Nodup := by decide
  have named : ∀ entry ∈ entries, FileTree.isName entry.1 = true := by decide
  have arranged : SiblingOrder.arrange .lexicographic (.ofString "r") entries = entries :=
    (SiblingOrder.arrange_eq_sorted total distinct named).trans (by decide +kernel)
  have opened : Walk.visit pairTree (Utf8.encode ".js") .lexicographic (.root (.ofString "r")) =
      .inside (entries.map fun entry => .entry ((Path.ofString "r").join entry.1) entry.1 entry.2) := by
    have directory : pairTree.kind (.ofString "r") = .ok .directory := rfl
    rw [Walk.visit_root directory, Walk.visitDirectory, listed]
    simp only [arranged]
  rw [Walk.next, Walk.nextOf_of_inside opened]
  have given : Walk.nextOf pairTree (Utf8.encode ".js") .lexicographic
      (.entry (.ofString "r/a.js") (Utf8.encode "a.js") .file ::
        [.entry (.ofString "r/b.js") (Utf8.encode "b.js") .file]) = (.item _, _) :=
    Walk.nextOf_of_item rfl
  exact congrArg (fun found : Walk.Answer × List Visit => (found.1, Walk.mk _ _ found.2)) given

/-- The second of two files becomes a fifo when both are listed and the first one has been given: the next call does not
return, so however often the walk is asked from then on, its end is never reached. -/
theorem answers_stop_at_fifo :
    let suffix := Utf8.encode ".js"
    let walk : Walk := ⟨suffix, .lexicographic, [.root (.ofString "r")]⟩
    let turns : List Turn :=
      [.ask, .change (.remove (.ofString "r/b.js")), .change (.make (.ofString "r/b.js") .fifo)]
    let reached := after ⟨pairTree, walk⟩ turns
    Walk.start pairTree (.ofString "r") suffix .lexicographic = .ok walk ∧
      answers ⟨pairTree, walk⟩ turns =
        [some (.ok ⟨.ofString "r/a.js", Utf8.encode "a.js", Utf8.encode "1"⟩)] ∧
      (reached.walk.next reached.tree).1 = .waits ∧
      ∀ calls, none ∉ answers reached (List.replicate calls .ask) := by
  intro suffix walk turns reached
  have holds : reached.tree.HoldsFifo (.ofString "r/b.js") :=
    FileTree.read_eq_waits_iff.1 (by decide +kernel)
  have pending : reached.walk = ⟨suffix, .lexicographic, [.entry (.ofString "r/b.js") (Utf8.encode "b.js") .file]⟩ :=
    congrArg Prod.snd next_pairTree
  have waits : (Visit.entry (.ofString "r/b.js") (Utf8.encode "b.js") .file).Waits reached.tree suffix :=
    ⟨_, _, rfl, by decide, holds⟩
  have blocked : ¬Walk.NoneWaits reached.tree reached.walk.suffix reached.walk.pending := by
    rw [pending]
    exact fun free => free _ List.mem_cons_self waits
  refine ⟨rfl, ?_, ?_, none_not_mem_answers blocked⟩
  · simp only [turns, answers, walk, suffix, next_pairTree]
  · rw [pending, Walk.next, Walk.nextOf_of_waits waits]

end Session

end BundleServer
