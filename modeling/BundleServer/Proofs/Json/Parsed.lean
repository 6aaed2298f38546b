import BundleServer.Json.Parser
import BundleServer.Proofs.Json.Members
import BundleServer.Proofs.Json.Numerals

/-!
# What reading gives

A property of single values is carried to all values inside by `Value.Everywhere`. Whatever the text, the value that
is read from it has names that ascend in every object and whole numbers that fit 64 bits, and is no deeper than the
levels that were allowed. The induction is on the levels; the readers of arrays and objects only pass on what the
reader of their parts gives.
-/

namespace BundleServer.Json

mutual

/-- The property holds of the value and of every value inside it. -/
def Value.Everywhere (property : Value → Prop) : Value → Prop
  | .array items => property (.array items) ∧ everywhereInItems property items
  | .object members => property (.object members) ∧ everywhereInMembers property members
  | value => property value

/-- The property holds in every item of an array. -/
def everywhereInItems (property : Value → Prop) : List Value → Prop
  | [] => True
  | item :: rest => item.Everywhere property ∧ everywhereInItems property rest

/-- The property holds in every value of an object. -/
def everywhereInMembers (property : Value → Prop) : List (String × Value) → Prop
  | [] => True
  | (_, value) :: rest => value.Everywhere property ∧ everywhereInMembers property rest

end

/-- Is the value no double? -/
def Value.IsWhole : Value → Prop
  | .number (.float _) => False
  | _ => True

/-- A whole number fits 64 bits, and the names of an object ascend. -/
def Value.IsSettled : Value → Prop
  | .number (.integer whole) => Fits whole
  | .object members => Members.Ascending members
  | _ => True

section Inside

variable {property : Value → Prop} {items : List Value} {members : List (String × Value)} {levels : Nat}

theorem everywhereInItems_iff :
    everywhereInItems property items ↔ ∀ item ∈ items, item.Everywhere property := by
  induction items with
  | nil => simp [everywhereInItems]
  | cons item items ih => simp [everywhereInItems, ih]

theorem everywhereInMembers_iff :
    everywhereInMembers property members ↔ ∀ member ∈ members, member.2.Everywhere property := by
  induction members with
  | nil => simp [everywhereInMembers]
  | cons member members ih => simp [everywhereInMembers, ih]

theorem Value.everywhere_array :
    (Value.array items).Everywhere property
      ↔ property (.array items) ∧ ∀ item ∈ items, item.Everywhere property := by
  rw [Value.Everywhere, everywhereInItems_iff]

theorem Value.everywhere_object :
    (Value.object members).Everywhere property
      ↔ property (.object members) ∧ ∀ member ∈ members, member.2.Everywhere property := by
  rw [Value.Everywhere, everywhereInMembers_iff]

theorem depthOfItems_le : depthOfItems items ≤ levels ↔ ∀ item ∈ items, item.depth ≤ levels := by
  induction items with
  | nil => simp [depthOfItems]
  | cons item items ih => simp [depthOfItems, ih]

theorem depthOfMembers_le : depthOfMembers members ≤ levels ↔ ∀ member ∈ members, member.2.depth ≤ levels := by
  induction members with
  | nil => simp [depthOfMembers]
  | cons member members ih => simp [depthOfMembers, ih]

/-- What holds everywhere in a value holds of the value itself. -/
theorem Value.here {v : Value} (everywhere : v.Everywhere property) : property v := by
  cases v with
  | array items => exact everywhere.1
  | object members => exact everywhere.1
  | _ => exact everywhere

end Inside

/-- There is a text from which the reader takes the value. -/
def Reader.Gives {α : Type} (reader : Reader α) (value : α) : Prop :=
  ∃ bytes rest, reader.run bytes = .ok (value, rest)

section Parts

variable {item : Reader Value} {bytes rest : Bytes} {items : List Value} {members : List (String × Value)}

theorem gives_of_readItems (found : readItems item bytes = .ok (items, rest)) :
    ∀ value ∈ items, item.Gives value := by
  fun_induction readItems item bytes generalizing items rest with
  | case2 => cases found; simp
  | case5 _ _ _ _ _ _ first behind taken _ others final read _ _ _ ih =>
    cases found
    exact List.forall_mem_cons.mpr ⟨⟨_, _, taken⟩, ih read⟩
  | _ => cases found

theorem gives_of_readArray (found : readArray item bytes = .ok (items, rest)) :
    ∀ value ∈ items, item.Gives value := by
  unfold readArray at found
  split at found
  · cases found
  · split at found
    · cases found; simp
    · split at found
      · rename_i taken
        split at found
        · rename_i read
          cases found
          exact List.forall_mem_cons.mpr ⟨⟨_, _, taken⟩, gives_of_readItems read⟩
        · cases found
      · cases found

theorem gives_of_readMember {member : String × Value} (found : (readMember item).run bytes = .ok (member, rest)) :
    item.Gives member.2 := by
  simp only [readMember] at found
  repeat' split at found
  · rename_i taken
    cases found
    exact ⟨_, _, taken⟩
  all_goals cases found

theorem gives_of_readMembers (found : readMembers item bytes = .ok (members, rest)) :
    ∀ member ∈ members, item.Gives member.2 := by
  fun_induction readMembers item bytes generalizing members rest with
  | case2 => cases found; simp
  | case4 _ _ _ first behind taken _ others final read _ _ _ _ _ ih =>
    cases found
    exact List.forall_mem_cons.mpr ⟨gives_of_readMember taken, ih read⟩
  | _ => cases found

theorem gives_of_readObject (found : readObject item bytes = .ok (members, rest)) :
    ∀ member ∈ members, item.Gives member.2 := by
  unfold readObject at found
  split at found
  · cases found
  · split at found
    · cases found; simp
    · split at found
      · split at found
        · rename_i taken
          split at found
          · rename_i read
            cases found
            exact List.forall_mem_cons.mpr ⟨gives_of_readMember taken, gives_of_readMembers read⟩
          · cases found
        · cases found
      · cases found

end Parts

theorem exists_of_map {α β : Type} {result : Except Fault α} {change : α → β} {value : β}
    (found : result.map change = .ok value) : ∃ before, result = .ok before ∧ change before = value := by
  cases result with
  | error fault => cases found
  | ok before => exact ⟨before, rfl, Except.ok.inj found⟩

theorem Reader.exists_of_map {α β : Type} {reader : Reader α} {change : α → β} {bytes rest : Bytes} {value : β}
    (found : (reader.map change).run bytes = .ok (value, rest)) :
    ∃ before, reader.run bytes = .ok (before, rest) ∧ change before = value := by
  simp only [Reader.map] at found
  split at found
  · rename_i taken
    cases found
    exact ⟨_, taken, rfl⟩
  · cases found

/-- A value that is read is a settled scalar, or is made of what the reader for its inside gives. -/
theorem cases_of_valueReader {inside? : Option (Reader Value)} {v : Value} (given : (valueReader inside?).Gives v) :
    (v.depth = 0 ∧ v.IsSettled)
      ∨ (∃ inside items, inside? = some inside ∧ v = .array items ∧ ∀ item ∈ items, inside.Gives item)
      ∨ ∃ inside members, inside? = some inside ∧ v = .object (Members.ofList members)
          ∧ ∀ member ∈ members, inside.Gives member.2 := by
  have scalarOfWord : ∀ {word : Value} {result : Except Fault Bytes} {rest : Bytes},
      result.map (word, ·) = .ok (v, rest) → word.depth = 0 → word.IsSettled → v.depth = 0 ∧ v.IsSettled := by
    intro word result rest found flat settled
    obtain ⟨_, _, same⟩ := exists_of_map found
    cases same
    exact ⟨flat, settled⟩
  have scalarOfNumber : ∀ {negative bytes rest},
      ((Numeral.reader negative).map Value.number).run bytes = .ok (v, rest) → v.depth = 0 ∧ v.IsSettled := by
    intro negative bytes rest found
    obtain ⟨number, taken, rfl⟩ := Reader.exists_of_map found
    refine ⟨rfl, ?_⟩
    cases number with
    | integer whole => exact Numeral.fits_of_reader taken
    | float value => trivial
  obtain ⟨bytes, rest, found⟩ := given
  simp only [valueReader] at found
  split at found
  · cases found
  repeat' split at found
  · exact .inl (scalarOfWord found rfl trivial)
  · exact .inl (scalarOfWord found rfl trivial)
  · exact .inl (scalarOfWord found rfl trivial)
  · exact .inl (scalarOfNumber found)
  · exact .inl (scalarOfNumber found)
  · obtain ⟨text, _, rfl⟩ := Reader.exists_of_map found
    exact .inl ⟨rfl, trivial⟩
  · rename_i inside
    obtain ⟨⟨items, final⟩, taken, same⟩ := exists_of_map found
    cases same
    exact .inr (.inl ⟨inside, items, rfl, rfl, gives_of_readArray taken⟩)
  · cases found
  · rename_i inside
    obtain ⟨⟨members, final⟩, taken, same⟩ := exists_of_map found
    cases same
    exact .inr (.inr ⟨inside, members, rfl, rfl, gives_of_readObject taken⟩)
  · cases found
  · cases found

theorem Value.everywhere_of_depth_eq_zero {property : Value → Prop} {v : Value} (flat : v.depth = 0)
    (holds : property v) : v.Everywhere property := by
  cases v with
  | array items => cases flat
  | object members => cases flat
  | _ => exact holds

/-- What is read within a number of levels is settled everywhere and no deeper. -/
theorem settled_of_value {levels : Nat} {v : Value} (given : (value levels).Gives v) :
    v.Everywhere Value.IsSettled ∧ v.depth ≤ levels := by
  induction levels generalizing v with
  | zero =>
    rcases cases_of_valueReader given with ⟨flat, settled⟩ | ⟨_, _, none, _⟩ | ⟨_, _, none, _⟩
    · exact ⟨Value.everywhere_of_depth_eq_zero flat settled, by omega⟩
    · cases none
    · cases none
  | succ levels ih =>
    rcases cases_of_valueReader given with
      ⟨flat, settled⟩ | ⟨inside, items, same, rfl, parts⟩ | ⟨inside, members, same, rfl, parts⟩
    · exact ⟨Value.everywhere_of_depth_eq_zero flat settled, by omega⟩
    · cases same
      have deep : depthOfItems items ≤ levels := depthOfItems_le.mpr fun item member => (ih (parts item member)).2
      constructor
      · rw [Value.everywhere_array]
        exact ⟨trivial, fun item member => (ih (parts item member)).1⟩
      · exact Nat.succ_le_succ deep
    · cases same
      have each : ∀ member ∈ Members.ofList members,
          member.2.Everywhere Value.IsSettled ∧ member.2.depth ≤ levels := fun member stands =>
        ih (parts member (Members.mem_ofList stands))
      have deep : depthOfMembers (Members.ofList members) ≤ levels :=
        depthOfMembers_le.mpr fun member stands => (each member stands).2
      constructor
      · rw [Value.everywhere_object]
        exact ⟨Members.ascending_ofList members, fun member stands => (each member stands).1⟩
      · exact Nat.succ_le_succ deep

theorem settled_of_parse {text : Bytes} {v : Value} (parsed : parse text = .ok v) :
    v.Everywhere Value.IsSettled ∧ v.depth ≤ levelLimit := by
  cases read : (value levelLimit).run text with
  | error fault =>
    simp only [parse, parseWhole, read] at parsed
    cases parsed
  | ok found =>
    obtain ⟨w, rest⟩ := found
    simp only [parse, parseWhole, read] at parsed
    split at parsed
    · cases parsed
      exact settled_of_value ⟨text, rest, read⟩
    · cases parsed

end BundleServer.Json
