import BundleServer.Bundle.Merge
import BundleServer.Proofs.Json.RoundTrip

/-!
# The merged object as text

Every member of a merged object was parsed from some fragment, so it is settled and at most as deep as a fragment can
be. The object itself is one level more than its deepest member. This decides whether its text can be parsed again.
-/

namespace BundleServer.Merge

variable {items : List Item} {merge : Merge}

theorem add_of_error (suffix : Bytes) (merge : Merge) {item : Item} {error : FragmentError}
    (failed : readValue item = .error error) :
    (add suffix merge item).members = merge.members := by
  simp only [add, failed]

theorem add_of_ok (suffix : Bytes) (merge : Merge) {item : Item} {fragment : Fragment}
    {value : Json.Value} (read : readValue item = .ok (fragment, value)) :
    (add suffix merge item).members = merge.members.insert (nameOf suffix fragment) value := by
  simp only [add, read]

/-- A fragment's value is what its content is parsed to. -/
theorem parse_of_readValue {item : Item} {fragment : Fragment} {value : Json.Value}
    (read : readValue item = .ok (fragment, value)) : Json.parse fragment.content = .ok value := by
  cases item with
  | error error => cases read
  | ok found =>
    simp only [readValue, bind, Except.bind] at read
    split at read
    · rename_i parsed
      cases read
      exact parsed
    · cases read

/-- The members are in order, and each holds the value of one of the items. -/
structure StemsFrom (items : List Item) (merge : Merge) : Prop where
  ascending : Json.Members.Ascending merge.members
  parsed : ∀ member ∈ merge.members, ∃ item ∈ items, ∃ fragment, readValue item = .ok (fragment, member.2)

theorem stemsFrom_add (suffix : Bytes) {item : Item} (stands : item ∈ items) (stems : StemsFrom items merge) :
    StemsFrom items (add suffix merge item) := by
  cases read : readValue item with
  | error error =>
    have kept := add_of_error suffix merge read
    constructor
    · rw [kept]
      exact stems.ascending
    · rw [kept]
      exact stems.parsed
  | ok found =>
    obtain ⟨fragment, value⟩ := found
    have inserted := add_of_ok suffix merge read
    constructor
    · rw [inserted]
      exact Json.Members.ascending_insert _ value stems.ascending
    · rw [inserted]
      intro member held
      rcases Json.Members.mem_insert held with rfl | before
      · exact ⟨item, stands, fragment, read⟩
      · exact stems.parsed member before

theorem stemsFrom_foldl (suffix : Bytes) {rest : List Item} (among : ∀ item ∈ rest, item ∈ items)
    (stems : StemsFrom items merge) : StemsFrom items (rest.foldl (add suffix) merge) := by
  induction rest generalizing merge with
  | nil => exact stems
  | cons item rest ih =>
    rw [List.forall_mem_cons] at among
    exact ih among.2 (stemsFrom_add suffix among.1 stems)

theorem stemsFrom_ofItems (suffix : Bytes) (items : List Item) : StemsFrom items (ofItems suffix items) := by
  have nothing : StemsFrom items {} := ⟨List.Pairwise.nil, by simp⟩
  exact stemsFrom_foldl suffix (fun _ stands => stands) nothing

/-- What a fragment holds is settled, and no deeper than a text can be. -/
theorem settled_of_readValue {item : Item} {fragment : Fragment} {value : Json.Value}
    (read : readValue item = .ok (fragment, value)) :
    value.Everywhere Json.Value.IsSettled ∧ value.depth ≤ Json.levelLimit :=
  Json.settled_of_parse (parse_of_readValue read)

/-- No parsed value of the items has a double in it. -/
def DoubleFree (items : List Item) : Prop :=
  ∀ item ∈ items, ∀ fragment value, readValue item = .ok (fragment, value) → value.Everywhere Json.Value.IsWhole

/-- The body of merged fragments without doubles is parsed to the object of its members, ordered and in range at every
level, exactly if no member is as deep as a fragment can be. Otherwise it is refused for its depth. -/
theorem parse_body (suffix : Bytes) (items : List Item) (doubleFree : DoubleFree items) :
    (∀ member ∈ (ofItems suffix items).members, member.2.depth ≤ 127)
      ∧ (Json.Value.object (ofItems suffix items).members).Everywhere Json.Value.IsSettled
      ∧ ((∀ member ∈ (ofItems suffix items).members, member.2.depth ≤ 126) →
          Json.parse (ofItems suffix items).body = .ok (.object (ofItems suffix items).members))
      ∧ ((∃ member ∈ (ofItems suffix items).members, member.2.depth = 127) →
          ∃ error, Json.parse (ofItems suffix items).body = .error error ∧ error.reason = .tooDeep) := by
  have stems := stemsFrom_ofItems suffix items
  have depths : ∀ member ∈ (ofItems suffix items).members, member.2.depth ≤ 127 := by
    intro member held
    obtain ⟨item, _, fragment, read⟩ := stems.parsed member held
    exact (settled_of_readValue read).2
  have settled : (Json.Value.object (ofItems suffix items).members).Everywhere Json.Value.IsSettled := by
    refine Json.Value.everywhere_object.mpr ⟨stems.ascending, fun member held => ?_⟩
    obtain ⟨item, _, fragment, read⟩ := stems.parsed member held
    exact (settled_of_readValue read).1
  have whole : (Json.Value.object (ofItems suffix items).members).Everywhere Json.Value.IsWhole := by
    refine Json.Value.everywhere_object.mpr ⟨trivial, fun member held => ?_⟩
    obtain ⟨item, stands, fragment, read⟩ := stems.parsed member held
    exact doubleFree item stands fragment member.2 read
  refine ⟨depths, settled, fun shallow => ?_, fun ⟨member, held, deepest⟩ => ?_⟩
  · have within : Json.depthOfMembers (ofItems suffix items).members ≤ 126 := Json.depthOfMembers_le.mpr shallow
    exact Json.parse_write whole settled (Nat.succ_le_succ within)
  · have beyond : 127 ≤ Json.depthOfMembers (ofItems suffix items).members :=
      deepest ▸ Json.depthOfMembers_le.mp (Nat.le_refl _) member held
    exact Json.parse_write_refused whole settled (Nat.succ_le_succ beyond)

/-- An object inside of arrays inside one another. -/
def nested : Nat → Json.Value
  | 0 => .object [("\"\n", .number (.integer (-1)))]
  | levels + 1 => .array [nested levels]

theorem depth_nested (levels : Nat) : (nested levels).depth = levels + 1 := by
  induction levels with
  | zero => rfl
  | succ levels ih => simp [nested, Json.Value.depth, Json.depthOfItems, ih]

theorem whole_nested (levels : Nat) : (nested levels).Everywhere Json.Value.IsWhole := by
  induction levels with
  | zero => simp [nested, Json.Value.everywhere_object, Json.Value.Everywhere, Json.Value.IsWhole]
  | succ levels ih => simp [nested, Json.Value.everywhere_array, Json.Value.IsWhole, ih]

theorem settled_nested (levels : Nat) : (nested levels).Everywhere Json.Value.IsSettled := by
  induction levels with
  | zero =>
    simp [nested, Json.Value.everywhere_object, Json.Value.Everywhere, Json.Value.IsSettled, Json.Fits,
      Json.Members.Ascending]
  | succ levels ih => simp [nested, Json.Value.everywhere_array, Json.Value.IsSettled, ih]

/-- One fragment, in which the nested value is written. -/
def nestedItem (levels : Nat) : Item := .ok ⟨.ofString "deep.json", Utf8.encode "deep.json", (nested levels).write⟩

theorem readValue_nestedItem {levels : Nat} (within : levels < 127) :
    ∃ fragment, readValue (nestedItem levels) = .ok (fragment, nested levels)
      ∧ nameOf (Utf8.encode ".json") fragment = "deep" := by
  have shallow : (nested levels).depth ≤ Json.levelLimit := by
    rw [depth_nested]
    exact within
  have parsed := Json.parse_write (whole_nested levels) (settled_nested levels) shallow
  refine ⟨⟨.ofString "deep.json", Utf8.encode "deep.json", (nested levels).write⟩, ?_, rfl⟩
  simp only [nestedItem, readValue, bind, Except.bind, parsed]
  rfl

theorem members_nestedItem {levels : Nat} (within : levels < 127) :
    (ofItems (Utf8.encode ".json") [nestedItem levels]).members = [("deep", nested levels)] := by
  obtain ⟨fragment, read, name⟩ := readValue_nestedItem within
  rw [ofItems, List.foldl_cons, List.foldl_nil, add_of_ok _ _ read, name]
  rfl

theorem doubleFree_nestedItem {levels : Nat} (within : levels < 127) : DoubleFree [nestedItem levels] := by
  obtain ⟨_, known, _⟩ := readValue_nestedItem within
  intro item stands fragment value read
  obtain rfl := List.mem_singleton.mp stands
  rw [known] at read
  cases read
  exact whole_nested levels

theorem parse_body_nested :
    DoubleFree [nestedItem 125] ∧ DoubleFree [nestedItem 126]
      ∧ Json.parse (ofItems (Utf8.encode ".json") [nestedItem 125]).body = .ok (.object [("deep", nested 125)])
      ∧ ∃ error, Json.parse (ofItems (Utf8.encode ".json") [nestedItem 126]).body = .error error
          ∧ error.reason = .tooDeep := by
  have shallow := members_nestedItem (show 125 < 127 by decide)
  have deep := members_nestedItem (show 126 < 127 by decide)
  have free125 : DoubleFree [nestedItem 125] := doubleFree_nestedItem (by decide)
  have free126 : DoubleFree [nestedItem 126] := doubleFree_nestedItem (by decide)
  obtain ⟨_, _, back, _⟩ := parse_body (Utf8.encode ".json") [nestedItem 125] free125
  obtain ⟨_, _, _, refused⟩ := parse_body (Utf8.encode ".json") [nestedItem 126] free126
  rw [shallow] at back
  rw [deep] at refused
  refine ⟨free125, free126, back ?_, refused ⟨_, List.mem_singleton_self _, depth_nested 126⟩⟩
  intro member held
  obtain rfl := List.mem_singleton.mp held
  exact Nat.le_of_eq (depth_nested 125)

end BundleServer.Merge
