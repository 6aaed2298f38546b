import BundleServer.Proofs.Walk.Session

/-!
# What visits keep, a walk keeps

An invariant of a walk speaks of the items that have been given and of the visits that are pending. If no single visit
breaks it, on whatever tree the visit is made, then it holds behind every next item, behind all items of a tree that
does not change, and behind every run in which the tree changes between the items (`Keeps.answers`).
-/

namespace BundleServer

namespace Walk

/-- Does every visit keep what is known of the items given so far and the visits pending? A visit that waits remains
pending. -/
structure Keeps (suffix : Bytes) (order : SiblingOrder) (invariant : List Item → List Visit → Prop) : Prop where
  nothing : ∀ {tree given v rest}, invariant given (v :: rest) → visit tree suffix order v = .nothing →
    invariant given rest
  item : ∀ {tree given v rest item}, invariant given (v :: rest) → visit tree suffix order v = .item item →
    invariant (given ++ [item]) rest
  inside : ∀ {tree given v rest visits}, invariant given (v :: rest) → visit tree suffix order v = .inside visits →
    invariant given (visits ++ rest)

namespace Keeps

variable {suffix : Bytes} {order : SiblingOrder} {invariant : List Item → List Visit → Prop}
  (keeps : Keeps suffix order invariant) {given : List Item} {pending rest : List Visit}

include keeps

theorem nextOf {tree : FileTree} {answer : Answer} (holds : invariant given pending)
    (found : Walk.nextOf tree suffix order pending = (answer, rest)) :
    invariant (given ++ answer.item?.toList) rest := by
  fun_induction Walk.nextOf tree suffix order pending with
  | case1 =>
    obtain ⟨rfl, rfl⟩ := Prod.mk.inj found
    rwa [Answer.item?, Option.toList_none, List.append_nil]
  | case2 v pending item outcome =>
    obtain ⟨rfl, rfl⟩ := Prod.mk.inj found
    exact keeps.item holds outcome
  | case3 v pending outcome ih => exact ih (keeps.nothing holds outcome) found
  | case4 v pending visits outcome ih => exact ih (keeps.inside holds outcome) found
  | case5 v pending outcome =>
    obtain ⟨rfl, rfl⟩ := Prod.mk.inj found
    rwa [Answer.item?, Option.toList_none, List.append_nil]

/-- What visits keep holds of all items of a tree that does not change. -/
theorem itemsOf (tree : FileTree) (holds : invariant given pending) :
    ∃ rest, invariant (given ++ Walk.itemsOf tree suffix order pending) rest := by
  fun_induction Walk.itemsOf tree suffix order pending generalizing given with
  | case1 pending item rest found ih =>
    have goesOn : invariant (given ++ [item]) rest := keeps.nextOf holds found
    rw [List.append_cons]
    exact ih goesOn
  | case2 pending rest found => exact ⟨rest, keeps.nextOf holds found⟩
  | case3 pending rest found => exact ⟨rest, keeps.nextOf holds found⟩

end Keeps

end Walk

namespace Session

/-- A walk with nothing left to visit never gives an item again, whatever becomes of the tree. -/
theorem answers_of_ended (session : Session) (ended : session.walk.pending = []) (turns : List Turn) :
    ∃ ends, session.answers turns = List.replicate ends none := by
  induction turns generalizing session with
  | nil => exact ⟨0, rfl⟩
  | cons turn rest ih =>
    cases turn with
    | change change => exact ih (session.take (.change change)) ended
    | ask =>
      have nothing : session.walk.next session.tree = (.ended, session.walk) := by
        obtain ⟨tree, suffix, order, pending⟩ := session
        simp only at ended
        subst ended
        simp [Walk.next, Walk.nextOf]
      obtain ⟨ends, same⟩ := ih (session.take .ask) (by simpa [take, nothing] using ended)
      exact ⟨ends + 1, by simp only [answers, nothing, same, List.replicate_succ]⟩

end Session

/-- The answers of a walk are items, and then nothing, as far as its calls return. What visits keep holds of these items
and of what is pending behind them. The induction is on the turns. -/
theorem Walk.Keeps.answers {suffix : Bytes} {order : SiblingOrder} {invariant : List Item → List Visit → Prop}
    (keeps : Walk.Keeps suffix order invariant) {given : List Item} {pending : List Visit}
    (holds : invariant given pending) (tree : FileTree) (turns : List Session.Turn) :
    ∃ (items : List Item) (ends : Nat) (rest : List Visit),
      Session.answers ⟨tree, ⟨suffix, order, pending⟩⟩ turns = items.map some ++ List.replicate ends none ∧
      invariant (given ++ items) rest := by
  induction turns generalizing tree given pending with
  | nil => exact ⟨[], 0, pending, rfl, by rwa [List.append_nil]⟩
  | cons turn turns ih =>
    cases turn with
    | change change => exact ih holds (tree.apply change)
    | ask =>
      cases found : Walk.nextOf tree suffix order pending with
      | mk answer rest =>
        have goesOn := keeps.nextOf holds found
        cases answer with
        | waits =>
          refine ⟨[], 0, rest, ?_, goesOn⟩
          simp only [Session.answers, Walk.next, found, List.map_nil, List.replicate_zero, List.append_nil]
        | ended =>
          obtain rfl := Walk.pending_of_nextOf_ended found
          obtain ⟨ends, same⟩ := Session.answers_of_ended ⟨tree, suffix, order, []⟩ rfl turns
          refine ⟨[], ends + 1, [], ?_, goesOn⟩
          simp only [Session.answers, Session.take, Walk.next, found, same, List.map_nil, List.nil_append,
            List.replicate_succ]
        | item item =>
          obtain ⟨items, ends, last, same, kept⟩ := ih goesOn tree
          refine ⟨item :: items, ends, last, ?_, by rwa [List.append_assoc] at kept⟩
          simp only [Session.answers, Session.take, Walk.next, found, same, List.map_cons, List.cons_append]

end BundleServer
