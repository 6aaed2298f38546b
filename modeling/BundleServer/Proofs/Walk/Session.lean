import BundleServer.FileTree.Change
import BundleServer.Proofs.Order
import BundleServer.Proofs.Walk.Traversal

/-!
# Sessions with a walk

A session is a walk and the tree on which it is asked. In its turns the walk is asked for its next item, or the tree
is changed. What the walk answers is seen turn by turn. On a tree that does not change, the answers are the items of
the plain recursion from the root, and from then on nothing (`answers_eq_traversal`).
-/

namespace BundleServer

/-- A walk with the tree on which it is asked. -/
structure Session where
  tree : FileTree
  walk : Walk

namespace Session

/-- What happens next in a session. -/
inductive Turn where
  /-- The walk is asked for its next item. -/
  | ask
  | change (change : FileTree.Change)
  deriving DecidableEq, Repr

/-- The session after a turn. A call that does not return still has its visit to make. -/
def take (session : Session) : Turn → Session
  | .ask => { session with walk := (session.walk.next session.tree).2 }
  | .change change => { session with tree := session.tree.apply change }

/-- What the walk answers whenever it is asked in some turns. Behind a call that does not return there is no further
turn. -/
def answers (session : Session) : List Turn → List (Option Item)
  | [] => []
  | .ask :: rest => match (session.walk.next session.tree).1 with
    | .item item => some item :: (session.take .ask).answers rest
    | .ended => none :: (session.take .ask).answers rest
    | .waits => []
  | .change change :: rest => (session.take (.change change)).answers rest

end Session

namespace Walk

/-- A total order arranges entries as if each were put in its place in turn. -/
theorem agree_sorted {order : SiblingOrder} (total : order.IsTotal) : Agree order.arrange order.sorted :=
  fun _ _ distinct named => SiblingOrder.arrange_eq_sorted total distinct named

variable {tree : FileTree} {suffix : Bytes} {order : SiblingOrder}

/-- If no pending visit waits, the call returns. It gives the first item that remains, and the others remain behind
it. -/
theorem next_eq {walk : Walk} (free : NoneWaits tree walk.suffix walk.pending) :
    (walk.next tree).1 ≠ .waits ∧ (walk.next tree).1.item? = (walk.items tree).head? ∧
      (walk.next tree).2.items tree = (walk.items tree).tail ∧
      NoneWaits tree (walk.next tree).2.suffix (walk.next tree).2.pending := by
  rw [items, itemsOf]
  split
  · rename_i item rest found
    simp [next, found, items, Answer.item?, (noneWaits_iff_of_nextOf found).2 free]
  · rename_i rest found
    obtain rfl := pending_of_nextOf_ended found
    simp [next, found, items, itemsOf_nil, Answer.item?, NoneWaits]
  · rename_i rest found
    exact absurd ((noneWaits_iff_of_nextOf found).2 free) (not_noneWaits_of_nextOf_waits found)

end Walk

namespace Session

theorem answers_ask {session : Session} (returns : (session.walk.next session.tree).1 ≠ .waits) (rest : List Turn) :
    session.answers (.ask :: rest) =
      (session.walk.next session.tree).1.item? :: (session.take .ask).answers rest := by
  rw [answers]
  cases answered : (session.walk.next session.tree).1 with
  | item item => rfl
  | ended => rfl
  | waits => exact absurd answered returns

/-- On a tree that does not change, the answers are the items of the walk in their order, and then nothing, if no
pending visit waits. -/
theorem answers_replicate {tree : FileTree} {walk : Walk} (free : Walk.NoneWaits tree walk.suffix walk.pending)
    (n : Nat) :
    answers ⟨tree, walk⟩ (List.replicate n .ask) = (List.range n).map ((walk.items tree)[·]?) := by
  induction n generalizing walk with
  | zero => rfl
  | succ n ih =>
    obtain ⟨returns, first, others, goesOn⟩ := Walk.next_eq free
    rw [List.replicate_succ, answers_ask returns, List.range_succ_eq_map, List.map_cons, List.map_map, take, ih goesOn]
    simp only [first, others, List.head?_eq_getElem?]
    congr 1
    apply List.map_congr_left
    intro i _
    simp [List.getElem?_tail]

/-- The lazy walk refines the plain recursion. Asked again and again on an unchanged tree, a walk from a root that
leads to a directory gives the items of the recursion that takes the sorted entries of each directory one after the
other, and nothing behind the last of them. -/
theorem answers_eq_traversal (tree : FileTree) (root : Path) (suffix : Bytes) (order : SiblingOrder)
    (filled : suffix ≠ []) (directory : tree.kind root = .ok .directory) (total : order.IsTotal) :
    ∃ walk, Walk.start tree root suffix order = .ok walk ∧ ∀ n,
      answers ⟨tree, walk⟩ (List.replicate n .ask) =
        (List.range n).map ((Walk.traversal tree suffix order.sorted root)[·]?) := by
  refine ⟨_, Walk.start_eq_ok_iff.2 ⟨filled, directory, rfl⟩, fun n => ?_⟩
  have agree : Walk.Agree order.arrange order.sorted := fun path entries distinct named =>
    SiblingOrder.arrange_eq_sorted total distinct named
  rw [answers_replicate (Walk.noneWaits_root root),
    Walk.items_of_start (Walk.start_eq_ok_iff.2 ⟨filled, directory, rfl⟩), Walk.traversal_congr agree]

/-- A link to a directory in which stand a directory that cannot be searched, a file, a link to it, a link that leads
nowhere and a link back to the directory itself. -/
def linkedTree : FileTree where
  top := .directory .ofDirectory
    [(Utf8.encode "app", .directory .ofDirectory
        [(Utf8.encode "b.js", .file .ofFile (Utf8.encode "2")),
         (Utf8.encode "a", .directory (.ofDigit 4) [(Utf8.encode "one.js", .file .ofFile [])]),
         (Utf8.encode "loop.js", .link (.ofString ".")),
         (Utf8.encode "d.js", .link (.ofString "missing")),
         (Utf8.encode "c.js", .link (.ofString "b.js"))]),
     (Utf8.encode "link", .link (.ofString "app"))]
  wellFormed := by
    simp only [FileTree.Node.WellFormed, FileTree.Node.WellFormedEntries]
    decide

theorem answers_through_linked_root :
    Utf8.encode ".js" ≠ [] ∧ linkedTree.kind (.ofString "link") = .ok .directory ∧
      SiblingOrder.lexicographic.IsTotal ∧
      ∃ walk, Walk.start linkedTree (.ofString "link") (Utf8.encode ".js") .lexicographic = .ok walk ∧ ∀ n,
        answers ⟨linkedTree, walk⟩ (List.replicate n .ask) = (List.range n).map
          ([.error (.read (.ofString "link/a/one.js") (.access .permissionDenied)),
            .ok ⟨.ofString "link/b.js", Utf8.encode "b.js", Utf8.encode "2"⟩,
            .ok ⟨.ofString "link/c.js", Utf8.encode "c.js", Utf8.encode "2"⟩,
            .error (.read (.ofString "link/d.js") (.access .notFound))][·]?) :=
  ⟨by decide, by decide, trivial,
    answers_eq_traversal linkedTree (.ofString "link") (Utf8.encode ".js") .lexicographic (by decide) (by decide)
      trivial⟩

end Session

end BundleServer
