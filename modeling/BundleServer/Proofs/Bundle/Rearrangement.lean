import BundleServer.Proofs.Bundle.Prevailing

/-!
# Rearranged items

The sequence of the items matters to a merged body only among fragments of the same name. Items may change places as
long as the fragments of each name that can be parsed follow one another as before: then the same fragment prevails for
each name, so the members are the same, and since they stand in order there is one body for them. What fails may stand
anywhere. Names are compared as they are decoded, so two keys that are not UTF-8 can be one name.
-/

namespace BundleServer.Merge

variable {suffix : Bytes} {items others : List Item} {name : String}

/-- Are these the same items in another sequence, in which the fragments of each name that can be parsed follow one
another as before? -/
structure Rearranges (suffix : Bytes) (items others : List Item) : Prop where
  perm : items.Perm others
  sequence : ∀ name, items.filterMap (candidate? suffix name) = others.filterMap (candidate? suffix name)

/-- Do the fragments that can be parsed have different names? -/
def Distinct (suffix : Bytes) (items : List Item) : Prop :=
  (items.filterMap Item.parsed?).Pairwise fun first second => nameOf suffix first.1 ≠ nameOf suffix second.1

theorem filterMap_candidate? (suffix : Bytes) (name : String) (items : List Item) :
    items.filterMap (candidate? suffix name) =
      (items.filterMap Item.parsed?).filter fun found => nameOf suffix found.1 = name :=
  List.filter_filterMap.symm

/-- Fragments with different names have no sequence to keep. -/
theorem rearranges_of_distinct (permuted : items.Perm others) (distinct : Distinct suffix items) :
    Rearranges suffix items others := by
  refine ⟨permuted, fun name => ?_⟩
  have alike := permuted.filterMap (candidate? suffix name)
  -- At most one fragment has the name, and a permutation leaves it alone.
  cases found : items.filterMap (candidate? suffix name) with
  | nil =>
    rw [found] at alike
    exact alike.nil_eq
  | cons first rest =>
    cases rest with
    | nil =>
      rw [found] at alike
      exact alike.singleton_eq
    | cons second rest =>
      have apart := distinct.filter fun found => nameOf suffix found.1 = name
      rw [← filterMap_candidate?, found] at apart
      have named : ∀ own ∈ first :: second :: rest, nameOf suffix own.1 = name := by
        intro own member
        rw [← found, filterMap_candidate?] at member
        exact of_decide_eq_true (List.mem_filter.1 member).2
      have differs := List.rel_of_pairwise_cons apart List.mem_cons_self
      rw [named first (by simp), named second (by simp)] at differs
      exact absurd rfl differs

/-- Rearranged items have the same members. -/
theorem members_eq_of_rearranges (rearranges : Rearranges suffix items others) :
    (ofItems suffix items).members = (ofItems suffix others).members := by
  have ascending (items : List Item) := (stemsFrom_ofItems suffix items).ascending
  refine Json.Members.eq_of_mem_iff (ascending items) (ascending others) fun pair => ?_
  have same : prevailing? suffix pair.1 items = prevailing? suffix pair.1 others := by
    rw [prevailing?, prevailing?, rearranges.sequence]
  rw [← Json.Members.get?_eq_some_iff (ascending items), ← Json.Members.get?_eq_some_iff (ascending others),
    (follows_ofItems suffix items).members, (follows_ofItems suffix others).members, same]

/-- The merged body depends only on the sequence of the fragments of each name. Rearranged items give the same bytes,
and fragments with different names give them in every sequence. -/
theorem body_eq_of_rearranges (suffix : Bytes) (items others : List Item) :
    (Rearranges suffix items others → (ofItems suffix items).body = (ofItems suffix others).body) ∧
      (items.Perm others → Distinct suffix items → (ofItems suffix items).body = (ofItems suffix others).body) := by
  have alike (rearranges : Rearranges suffix items others) :
      (ofItems suffix items).body = (ofItems suffix others).body := by
    rw [body, body, members_eq_of_rearranges rearranges]
  exact ⟨alike, fun permuted distinct => alike (rearranges_of_distinct permuted distinct)⟩

/-- A fragment with a name that is not UTF-8. Whatever its first byte is, the name is decoded to the same. -/
def undecoded (first : UInt8) (content : String) : Item :=
  .ok ⟨⟨first :: Utf8.encode ".json"⟩, first :: Utf8.encode ".json", Utf8.encode content⟩

/-- A fragment whose name is not that of the others, and a file that was not read. -/
def decoded : Item := .ok ⟨.ofString "x.json", Utf8.encode "x.json", Utf8.encode "3"⟩

def unread : Item := .error (.read (.ofString "y.json") (.access .permissionDenied))

/-- Two fragments of one name, between which one of the same name fails. -/
def scattered : List Item := [undecoded 0xFF "1", undecoded 0xFF "\x7b", decoded, undecoded 0xFE "2", unread]

/-- The same items: the two fragments of one name still follow one another. -/
def gathered : List Item := [unread, decoded, undecoded 0xFF "1", undecoded 0xFE "2", undecoded 0xFF "\x7b"]

theorem rearranges_scattered : Rearranges (Utf8.encode ".json") scattered gathered := by
  refine ⟨by decide, fun name => ?_⟩
  by_cases other : name = "x"
  · subst other
    rfl
  · have passed : candidate? (Utf8.encode ".json") name decoded = none := by
      refine Option.eq_none_iff_forall_ne_some.2 fun ⟨fragment, value⟩ chosen => other ?_
      obtain ⟨same, -, named⟩ := candidate?_eq_some_iff.1 chosen
      cases same
      exact named.symm
    have broken : candidate? (Utf8.encode ".json") name (undecoded 0xFF "\x7b") = none := rfl
    have missing : candidate? (Utf8.encode ".json") name unread = none := rfl
    simp only [scattered, gathered, List.filterMap_cons, passed, broken, missing]

theorem body_eq_of_rearranges_scattered :
    Rearranges (Utf8.encode ".json") scattered gathered ∧
      (ofItems (Utf8.encode ".json") scattered).body = (ofItems (Utf8.encode ".json") gathered).body ∧
      (ofItems (Utf8.encode ".json") gathered).body = Utf8.encode "\x7b\"x\":3,\"\uFFFD\":2\x7d" ∧
      Distinct (Utf8.encode ".json") scattered.tail ∧ scattered.tail.Perm scattered.tail.reverse ∧
      (ofItems (Utf8.encode ".json") scattered.tail).body =
        (ofItems (Utf8.encode ".json") scattered.tail.reverse).body := by
  have distinct : Distinct (Utf8.encode ".json") scattered.tail := by
    have parsed : (scattered.tail.filterMap Item.parsed?).map (fun found => nameOf (Utf8.encode ".json") found.1) =
        ["x", "\uFFFD"] := by decide
    rw [Distinct, ← List.pairwise_map (R := (· ≠ ·))
      (f := fun found : Fragment × Json.Value => nameOf (Utf8.encode ".json") found.1), parsed]
    decide
  have permuted : scattered.tail.Perm scattered.tail.reverse := (List.reverse_perm _).symm
  refine ⟨rearranges_scattered, (body_eq_of_rearranges _ _ _).1 rearranges_scattered, ?_, distinct, permuted,
    (body_eq_of_rearranges _ _ _).2 permuted distinct⟩
  decide +kernel

end BundleServer.Merge
