import BundleServer.Proofs.Json.Literals
import BundleServer.Proofs.Json.Parsed

/-!
# Written values read back

A settled value without doubles is read back from what is written of it, whatever follows that does not continue a
numeral, when it is no deeper than the levels that are allowed. When it is deeper, reading fails because of its depth
and for no other reason. Both are facts about one reader and one value (`Reader.Meets`). They hold for one level more
if they hold for the level below, so the printer's recursion on parts meets the readers' loops over commas.
-/

namespace BundleServer.Json

/-- Did reading fail because of depth? -/
def TooDeep {α : Type} (result : Except Fault α) : Prop := ∃ unread, result = .error ⟨.tooDeep, unread⟩

/-- The reader takes the written value if it is within the levels, and fails because of its depth if not. -/
structure Reader.Meets (reader : Reader Value) (levels : Nat) (v : Value) : Prop where
  reads : v.depth ≤ levels → ∀ {rest}, EndsNumeral rest → reader.run (v.write ++ rest) = .ok (v, rest)
  refuses : levels < v.depth → ∀ {rest}, EndsNumeral rest → TooDeep (reader.run (v.write ++ rest))

section Sequence

variable {α : Type}

/-- One part, and then the others behind it. -/
def oneThen (first : Except Fault (α × Bytes)) (others : Bytes → Except Fault (List α × Bytes)) :
    Except Fault (List α × Bytes) :=
  first.bind fun (part, behind) => (others behind).map fun (parts, final) => (part :: parts, final)

variable {first : Except Fault (α × Bytes)} {others : Bytes → Except Fault (List α × Bytes)} {part : α}
  {parts : List α} {behind final : Bytes}

theorem oneThen_eq_ok (read : first = .ok (part, behind)) (further : others behind = .ok (parts, final)) :
    oneThen first others = .ok (part :: parts, final) := by
  unfold oneThen
  rw [read]
  simp only [Except.bind, further, Except.map]

theorem tooDeep_oneThen (refused : TooDeep first) : TooDeep (oneThen first others) := by
  obtain ⟨unread, same⟩ := refused
  rw [same]
  exact ⟨unread, rfl⟩

theorem tooDeep_oneThen_of_others (read : first = .ok (part, behind)) (refused : TooDeep (others behind)) :
    TooDeep (oneThen first others) := by
  obtain ⟨unread, same⟩ := refused
  refine ⟨unread, ?_⟩
  unfold oneThen
  rw [read]
  simp only [Except.bind, same, Except.map]

end Sequence

theorem skipBlank_of_first {b : UInt8} (stands : isBlank b = false) (rest : Bytes) :
    skipBlank (b :: rest) = b :: rest := by
  simp [skipBlank, stands]

theorem endsNumeral_of_first {b : UInt8} (stops : isDigit b = false ∧ b ≠ 0x2E ∧ b ≠ 0x65 ∧ b ≠ 0x45)
    (rest : Bytes) : EndsNumeral (b :: rest) := by
  intro c first
  cases first
  exact stops

theorem endsNumeral_nil : EndsNumeral [] := by
  intro b first
  cases first

/-- A digit is taken neither for a blank nor for the start of any other token. -/
theorem ne_of_isDigit {b : UInt8} (digit : isDigit b = true) :
    isBlank b = false ∧ b ≠ 0x5D ∧ b ≠ 0x6E ∧ b ≠ 0x74 ∧ b ≠ 0x66 ∧ b ≠ 0x2D := by
  have differs : ∀ {c}, isDigit c = false → b ≠ c := by
    rintro c other rfl
    rw [digit] at other
    cases other
  refine ⟨?_, differs rfl, differs rfl, differs rfl, differs rfl, differs rfl⟩
  simp only [isBlank, Bool.or_eq_false_iff, decide_eq_false_iff_not]
  exact ⟨⟨⟨differs rfl, differs rfl⟩, differs rfl⟩, differs rfl⟩

theorem exists_first_of_toDigits (n : Nat) :
    ∃ b rest, Utf8.encodeList (Nat.toDigits 10 n) = b :: rest ∧ isDigit b = true := by
  cases digits : Nat.toDigits 10 n with
  | nil => exact absurd digits Nat.toDigits_ne_nil
  | cons c chars =>
    have member : c ∈ Nat.toDigits 10 n := digits ▸ List.mem_cons_self
    have digit : c.isDigit = true := Nat.isDigit_of_mem_toDigits (by decide) (by decide) member
    exact ⟨c.toNat.toUInt8, Utf8.encodeList chars, encodeList_cons_of_isDigit digit chars, isDigit_toUInt8 digit⟩

theorem write_integer_of_neg {whole : Int} (negative : whole < 0) :
    (Value.number (.integer whole)).write = 0x2D :: Utf8.encodeList (Nat.toDigits 10 whole.natAbs) := by
  simp only [Value.write, Number.write, negative, if_true]
  rfl

theorem write_integer_of_nonneg {whole : Int} (natural : ¬ whole < 0) :
    (Value.number (.integer whole)).write = Utf8.encodeList (Nat.toDigits 10 whole.natAbs) := by
  simp only [Value.write, Number.write, natural, if_false]

/-- The first byte of a written value is taken neither for a blank nor for the end of an array. -/
theorem exists_first_of_write {v : Value} (whole : v.IsWhole) :
    ∃ b rest, v.write = b :: rest ∧ isBlank b = false ∧ b ≠ 0x5D := by
  cases v with
  | null => exact ⟨0x6E, _, rfl, rfl, by decide⟩
  | bool value => cases value with
    | true => exact ⟨0x74, _, rfl, rfl, by decide⟩
    | false => exact ⟨0x66, _, rfl, rfl, by decide⟩
  | number number => cases number with
    | float value => exact whole.elim
    | integer value =>
      by_cases negative : value < 0
      · exact ⟨0x2D, _, write_integer_of_neg negative, rfl, by decide⟩
      · obtain ⟨b, rest, written, digit⟩ := exists_first_of_toDigits value.natAbs
        have other := ne_of_isDigit digit
        exact ⟨b, rest, (write_integer_of_nonneg negative).trans written, other.1, other.2.1⟩
  | string text => exact ⟨Literal.quote, _, rfl, rfl, by decide⟩
  | array items => exact ⟨0x5B, _, rfl, rfl, by decide⟩
  | object members => exact ⟨0x7B, _, rfl, rfl, by decide⟩

theorem commas_cons (piece : Bytes) (pieces : List Bytes) :
    commas (piece :: pieces) = piece ++ pieces.flatMap (0x2C :: ·) := by
  induction pieces generalizing piece with
  | nil => simp [commas]
  | cons next pieces ih =>
    have step : commas (piece :: next :: pieces) = piece ++ 0x2C :: commas (next :: pieces) := rfl
    rw [step, ih next, List.flatMap_cons, List.cons_append]

section Items

variable {item : Reader Value} {levels : Nat} {items : List Value}

/-- What is written behind an item of an array. -/
def behindItem (items : List Value) (rest : Bytes) : Bytes :=
  (writeItems items).flatMap (0x2C :: ·) ++ 0x5D :: rest

theorem behindItem_cons (v : Value) (items : List Value) (rest : Bytes) :
    behindItem (v :: items) rest = 0x2C :: (v.write ++ behindItem items rest) := by
  simp [behindItem, writeItems]

theorem endsNumeral_behindItem (items : List Value) (rest : Bytes) : EndsNumeral (behindItem items rest) := by
  cases items with
  | nil => exact endsNumeral_of_first (by decide) rest
  | cons v items =>
    rw [behindItem_cons]
    exact endsNumeral_of_first (by decide) _

/-- What is read behind an item is decided by the next byte that is not blank. -/
theorem readItems_next {bytes rest : Bytes} {b : UInt8} (next : skipBlank bytes = b :: rest) :
    readItems item bytes =
      if b = 0x5D then .ok ([], rest)
      else if b = 0x2C then match skipBlank rest with
        | [] => .error (.onNext .endInValue [])
        | c :: behind =>
          if c = 0x5D then .error (.onNext .trailingComma (c :: behind)) else oneThen (item.run rest) (readItems item)
      else .error (.onNext .noListSeparator (b :: rest)) := by
  rw [readItems]
  split
  · rename_i none
    rw [next] at none
    cases none
  · rename_i some
    rw [next] at some
    cases some
    congr 3
    funext c behind
    congr 1
    unfold oneThen
    split
    · rename_i value behind found
      simp only [found, Except.bind]
      cases readItems item behind <;> rfl
    · rename_i found
      rw [found]
      rfl

theorem readItems_close (rest : Bytes) : readItems item (0x5D :: rest) = .ok ([], rest) := by
  rw [readItems_next (skipBlank_of_first (by decide) rest), if_pos rfl]

/-- Reading behind an item comes to reading the next one. -/
theorem readItems_behindItem {v : Value} (whole : v.IsWhole) (items : List Value) (rest : Bytes) :
    readItems item (behindItem (v :: items) rest) =
      oneThen (item.run (v.write ++ behindItem items rest)) (readItems item) := by
  obtain ⟨b, more, written, stands, notClosing⟩ := exists_first_of_write whole
  have next : skipBlank (v.write ++ behindItem items rest) = b :: (more ++ behindItem items rest) := by
    rw [written, List.cons_append, skipBlank_of_first stands]
  rw [behindItem_cons, readItems_next (skipBlank_of_first (by decide) _), if_neg (by decide), if_pos rfl, next]
  simp only [if_neg notClosing]

theorem readItems_reads (whole : ∀ v ∈ items, v.IsWhole) (meets : ∀ v ∈ items, item.Meets levels v)
    (shallow : ∀ v ∈ items, v.depth ≤ levels) (rest : Bytes) :
    readItems item (behindItem items rest) = .ok (items, rest) := by
  induction items with
  | nil => exact readItems_close rest
  | cons v items ih =>
    rw [List.forall_mem_cons] at whole meets shallow
    have read := meets.1.reads shallow.1 (endsNumeral_behindItem items rest)
    rw [readItems_behindItem whole.1]
    exact oneThen_eq_ok read (ih whole.2 meets.2 shallow.2)

theorem readItems_refuses (whole : ∀ v ∈ items, v.IsWhole) (meets : ∀ v ∈ items, item.Meets levels v)
    (deep : ∃ v ∈ items, levels < v.depth) (rest : Bytes) :
    TooDeep (readItems item (behindItem items rest)) := by
  induction items with
  | nil => simp at deep
  | cons v items ih =>
    rw [List.forall_mem_cons] at whole meets
    simp only [List.mem_cons, exists_eq_or_imp] at deep
    rw [readItems_behindItem whole.1]
    by_cases shallow : v.depth ≤ levels
    · have read := meets.1.reads shallow (endsNumeral_behindItem items rest)
      apply tooDeep_oneThen_of_others read
      exact ih whole.2 meets.2 (deep.resolve_left (Nat.not_lt.mpr shallow))
    · apply tooDeep_oneThen
      exact meets.1.refuses (Nat.not_le.mp shallow) (endsNumeral_behindItem items rest)

/-- An array is read as if its first item stood behind a comma. -/
theorem readArray_item {v : Value} (whole : v.IsWhole) (items : List Value) (rest : Bytes) :
    readArray item (v.write ++ behindItem items rest) = readItems item (behindItem (v :: items) rest) := by
  obtain ⟨b, more, written, stands, notClosing⟩ := exists_first_of_write whole
  have next : skipBlank (v.write ++ behindItem items rest) = b :: (more ++ behindItem items rest) := by
    rw [written, List.cons_append, skipBlank_of_first stands]
  rw [readItems_behindItem whole, readArray, next]
  simp only [if_neg notClosing]
  unfold oneThen
  cases item.run (v.write ++ behindItem items rest) with
  | error fault => rfl
  | ok first =>
    simp only [Except.bind]
    cases readItems item first.2 <;> rfl

/-- An array is read as what would stand behind an item. -/
theorem valueReader_array (whole : ∀ v ∈ items, v.IsWhole) (rest : Bytes) :
    (valueReader (some item)).run ((Value.array items).write ++ rest)
      = (readItems item (behindItem items rest)).map fun (items, rest) => (.array items, rest) := by
  have bracket : ∀ bytes, (valueReader (some item)).run (0x5B :: bytes)
      = (readArray item bytes).map fun (items, rest) => (.array items, rest) := fun bytes => rfl
  cases items with
  | nil =>
    have empty : readItems item (behindItem [] rest) = .ok ([], rest) := readItems_close rest
    rw [empty]
    exact bracket (0x5D :: rest)
  | cons v items =>
    have written : (Value.array (v :: items)).write ++ rest = 0x5B :: (v.write ++ behindItem items rest) := by
      simp [Value.write, writeItems, commas_cons, behindItem]
    rw [written, bracket, readArray_item (List.forall_mem_cons.mp whole).1]

/-- One level more is enough for an array of items within the levels, and needed. -/
theorem meets_array (whole : ∀ v ∈ items, v.IsWhole) (meets : ∀ v ∈ items, item.Meets levels v) :
    (valueReader (some item)).Meets (levels + 1) (.array items) where
  reads shallow rest _ := by
    have inside : ∀ v ∈ items, v.depth ≤ levels := depthOfItems_le.mp (Nat.le_of_succ_le_succ shallow)
    rw [valueReader_array whole, readItems_reads whole meets inside]
    rfl
  refuses deep rest _ := by
    have inside : ∃ v ∈ items, levels < v.depth := by
      by_contra none
      simp only [not_exists, not_and, Nat.not_lt] at none
      have shallow := Nat.succ_le_succ (depthOfItems_le.mpr none)
      exact absurd deep (Nat.not_lt.mpr shallow)
    obtain ⟨unread, refused⟩ := readItems_refuses whole meets inside rest
    rw [valueReader_array whole, refused]
    exact ⟨unread, rfl⟩

end Items

section MembersOfObject

variable {item : Reader Value} {levels : Nat} {members : List (String × Value)}

/-- What is written behind a member of an object. -/
def behindMember (members : List (String × Value)) (rest : Bytes) : Bytes :=
  (writeMembers members).flatMap (0x2C :: ·) ++ 0x7D :: rest

/-- What is written of a member behind the opening quote of its name, and then of the others. -/
def insideMember (name : String) (v : Value) (members : List (String × Value)) (rest : Bytes) : Bytes :=
  name.toList.flatMap Literal.writeChar ++ Literal.quote :: 0x3A :: (v.write ++ behindMember members rest)

theorem behindMember_cons (name : String) (v : Value) (members : List (String × Value)) (rest : Bytes) :
    behindMember ((name, v) :: members) rest = 0x2C :: Literal.quote :: insideMember name v members rest := by
  simp [behindMember, insideMember, writeMembers, Literal.write]

theorem endsNumeral_behindMember (members : List (String × Value)) (rest : Bytes) :
    EndsNumeral (behindMember members rest) := by
  cases members with
  | nil => exact endsNumeral_of_first (by decide) rest
  | cons member members =>
    rw [behindMember_cons member.1 member.2]
    exact endsNumeral_of_first (by decide) _

/-- A member is read as its name and what its value is read as. -/
theorem readMember_inside (name : String) (v : Value) (members : List (String × Value)) (rest : Bytes) :
    (readMember item).run (insideMember name v members rest)
      = (item.run (v.write ++ behindMember members rest)).map fun (value, rest) => ((name, value), rest) := by
  have colon : ∀ bytes, readColon (0x3A :: bytes) = .ok bytes := fun bytes => rfl
  simp only [readMember, insideMember, Literal.reader_write, colon]
  cases item.run (v.write ++ behindMember members rest) <;> rfl

/-- What is read behind a member is decided by the next byte that is not blank. -/
theorem readMembers_next {bytes rest : Bytes} {b : UInt8} (next : skipBlank bytes = b :: rest) :
    readMembers item bytes =
      if b = 0x7D then .ok ([], rest)
      else if b = 0x2C then match skipBlank rest with
        | [] => .error (.onNext .endInValue [])
        | c :: name =>
          if c = Literal.quote then oneThen ((readMember item).run name) (readMembers item)
          else if c = 0x7D then .error (.onNext .trailingComma (c :: name))
          else .error (.onNext .nameNotString (c :: name))
      else .error (.onNext .noObjectSeparator (b :: rest)) := by
  rw [readMembers]
  split
  · rename_i none
    rw [next] at none
    cases none
  · rename_i some
    rw [next] at some
    cases some
    congr 2
    split
    · rename_i none
      simp only [none]
    · rename_i name some
      simp only [some]
      congr 1
      unfold oneThen
      split
      · rename_i member behind found
        simp only [found, Except.bind]
        cases readMembers item behind <;> rfl
      · rename_i found
        rw [found]
        rfl

theorem readMembers_close (rest : Bytes) : readMembers item (0x7D :: rest) = .ok ([], rest) := by
  rw [readMembers_next (skipBlank_of_first (by decide) rest), if_pos rfl]

/-- Reading behind a member comes to reading the next one. -/
theorem readMembers_behindMember (name : String) (v : Value) (members : List (String × Value)) (rest : Bytes) :
    readMembers item (behindMember ((name, v) :: members) rest) =
      oneThen ((readMember item).run (insideMember name v members rest)) (readMembers item) := by
  have quoted : ∀ bytes, skipBlank (Literal.quote :: bytes) = Literal.quote :: bytes :=
    skipBlank_of_first (by decide)
  rw [behindMember_cons, readMembers_next (skipBlank_of_first (by decide) _), if_neg (by decide), if_pos rfl, quoted]
  simp only [if_true]

theorem readMembers_reads (meets : ∀ member ∈ members, item.Meets levels member.2)
    (shallow : ∀ member ∈ members, member.2.depth ≤ levels) (rest : Bytes) :
    readMembers item (behindMember members rest) = .ok (members, rest) := by
  induction members with
  | nil => exact readMembers_close rest
  | cons member members ih =>
    obtain ⟨name, v⟩ := member
    rw [List.forall_mem_cons] at meets shallow
    have read : (readMember item).run (insideMember name v members rest) =
        .ok ((name, v), behindMember members rest) := by
      rw [readMember_inside, meets.1.reads shallow.1 (endsNumeral_behindMember members rest)]
      rfl
    rw [readMembers_behindMember]
    exact oneThen_eq_ok read (ih meets.2 shallow.2)

theorem readMembers_refuses (meets : ∀ member ∈ members, item.Meets levels member.2)
    (deep : ∃ member ∈ members, levels < member.2.depth) (rest : Bytes) :
    TooDeep (readMembers item (behindMember members rest)) := by
  induction members with
  | nil => simp at deep
  | cons member members ih =>
    obtain ⟨name, v⟩ := member
    rw [List.forall_mem_cons] at meets
    simp only [List.mem_cons, exists_eq_or_imp] at deep
    rw [readMembers_behindMember]
    by_cases shallow : v.depth ≤ levels
    · have read : (readMember item).run (insideMember name v members rest) =
          .ok ((name, v), behindMember members rest) := by
        rw [readMember_inside, meets.1.reads shallow (endsNumeral_behindMember members rest)]
        rfl
      apply tooDeep_oneThen_of_others read
      exact ih meets.2 (deep.resolve_left (Nat.not_lt.mpr shallow))
    · obtain ⟨unread, refused⟩ := meets.1.refuses (Nat.not_le.mp shallow) (endsNumeral_behindMember members rest)
      apply tooDeep_oneThen
      rw [readMember_inside, refused]
      exact ⟨unread, rfl⟩

/-- An object is read as if its first member stood behind a comma. -/
theorem readObject_member (name : String) (v : Value) (members : List (String × Value)) (rest : Bytes) :
    readObject item (Literal.quote :: insideMember name v members rest) =
      readMembers item (behindMember ((name, v) :: members) rest) := by
  have quoted : ∀ bytes, skipBlank (Literal.quote :: bytes) = Literal.quote :: bytes :=
    skipBlank_of_first (by decide)
  rw [readMembers_behindMember, readObject, quoted]
  simp only [if_true, if_neg (show Literal.quote ≠ 0x7D by decide)]
  unfold oneThen
  cases (readMember item).run (insideMember name v members rest) with
  | error fault => rfl
  | ok first =>
    simp only [Except.bind]
    cases readMembers item first.2 <;> rfl

/-- An object is read as what would stand behind a member. -/
theorem valueReader_object (members : List (String × Value)) (rest : Bytes) :
    (valueReader (some item)).run ((Value.object members).write ++ rest)
      = (readMembers item (behindMember members rest)).map
          fun (members, rest) => (.object (Members.ofList members), rest) := by
  have brace : ∀ bytes, (valueReader (some item)).run (0x7B :: bytes)
      = (readObject item bytes).map fun (members, rest) => (.object (Members.ofList members), rest) :=
    fun bytes => rfl
  cases members with
  | nil =>
    have empty : readMembers item (behindMember [] rest) = .ok ([], rest) := readMembers_close rest
    rw [empty]
    exact brace (0x7D :: rest)
  | cons member members =>
    obtain ⟨name, v⟩ := member
    have written : (Value.object ((name, v) :: members)).write ++ rest
        = 0x7B :: Literal.quote :: insideMember name v members rest := by
      simp [Value.write, writeMembers, commas_cons, behindMember, insideMember, Literal.write]
    rw [written, brace, readObject_member]

/-- One level more is enough for an object of values within the levels, and needed. -/
theorem meets_object (ascending : Members.Ascending members)
    (meets : ∀ member ∈ members, item.Meets levels member.2) :
    (valueReader (some item)).Meets (levels + 1) (.object members) where
  reads shallow rest _ := by
    have inside : ∀ member ∈ members, member.2.depth ≤ levels :=
      depthOfMembers_le.mp (Nat.le_of_succ_le_succ shallow)
    rw [valueReader_object, readMembers_reads meets inside]
    simp only [Except.map, Members.ofList_of_ascending ascending]
  refuses deep rest _ := by
    have inside : ∃ member ∈ members, levels < member.2.depth := by
      by_contra none
      simp only [not_exists, not_and, Nat.not_lt] at none
      have shallow := Nat.succ_le_succ (depthOfMembers_le.mpr none)
      exact absurd deep (Nat.not_lt.mpr shallow)
    obtain ⟨unread, refused⟩ := readMembers_refuses meets inside rest
    rw [valueReader_object, refused]
    exact ⟨unread, rfl⟩

end MembersOfObject

/-- A settled scalar is read at every level. -/
theorem reads_scalar (inside? : Option (Reader Value)) {v : Value} (flat : v.depth = 0) (whole : v.IsWhole)
    (settled : v.IsSettled) {rest : Bytes} (ends : EndsNumeral rest) :
    (valueReader inside?).run (v.write ++ rest) = .ok (v, rest) := by
  cases v with
  | null => rfl
  | bool value => cases value <;> rfl
  | number number => cases number with
    | float value => exact whole.elim
    | integer value =>
      have fits : Fits value := settled
      by_cases negative : value < 0
      · have minus : ∀ bytes, (valueReader inside?).run (0x2D :: bytes)
            = ((Numeral.reader true).map .number).run bytes := fun bytes => rfl
        have back : -(value.natAbs : Int) = value := by omega
        have bound : value.natAbs ≤ Nat.pow 2 63 := by have := fits.1; omega
        rw [write_integer_of_neg negative, List.cons_append, minus]
        simp only [Reader.map, Numeral.reader_negative (by omega) bound ends, back]
      · obtain ⟨b, more, written, digit⟩ := exists_first_of_toDigits value.natAbs
        obtain ⟨stands, _, notN, notT, notF, notMinus⟩ := ne_of_isDigit digit
        have back : (value.natAbs : Int) = value := by omega
        have bound : value.natAbs < UInt64.size := by have := fits.2; omega
        have taken := Numeral.reader_natural bound ends
        rw [write_integer_of_nonneg negative]
        rw [written, List.cons_append] at taken ⊢
        simp only [valueReader, skipBlank_of_first stands, notN, notT, notF, notMinus, digit, if_true, if_false,
          Reader.map, taken, back]
  | string text =>
    have quoted : ∀ bytes, (valueReader inside?).run (Literal.quote :: bytes)
        = (Literal.reader.map .string).run bytes := fun bytes => rfl
    rw [Value.write, Literal.write_append, quoted]
    simp only [Reader.map, Literal.reader_write]
  | array items => cases flat
  | object members => cases flat

theorem meets_scalar (inside? : Option (Reader Value)) (levels : Nat) {v : Value} (flat : v.depth = 0)
    (whole : v.Everywhere Value.IsWhole) (settled : v.Everywhere Value.IsSettled) :
    (valueReader inside?).Meets levels v where
  reads _ _ ends := reads_scalar inside? flat (Value.here whole) (Value.here settled) ends
  refuses deep := by omega

/-- A settled value without doubles comes back from each reader for which it is not too deep. -/
theorem meets_value (levels : Nat) {v : Value} (whole : v.Everywhere Value.IsWhole)
    (settled : v.Everywhere Value.IsSettled) : (value levels).Meets levels v := by
  induction levels generalizing v with
  | zero =>
    cases v with
    | array items =>
      exact ⟨fun shallow => absurd shallow (Nat.not_succ_le_zero _), fun _ rest _ => ⟨_, rfl⟩⟩
    | object members =>
      exact ⟨fun shallow => absurd shallow (Nat.not_succ_le_zero _), fun _ rest _ => ⟨_, rfl⟩⟩
    | _ => exact meets_scalar none 0 rfl whole settled
  | succ levels ih =>
    cases v with
    | array items =>
      rw [Value.everywhere_array] at whole settled
      refine meets_array (fun v member => Value.here (whole.2 v member)) fun v member => ?_
      exact ih (whole.2 v member) (settled.2 v member)
    | object members =>
      rw [Value.everywhere_object] at whole settled
      refine meets_object settled.1 fun member stands => ?_
      exact ih (whole.2 member stands) (settled.2 member stands)
    | _ => exact meets_scalar _ (levels + 1) rfl whole settled

/-- A text that is a written value is parsed to that value. -/
theorem parse_write {v : Value} (whole : v.Everywhere Value.IsWhole) (settled : v.Everywhere Value.IsSettled)
    (shallow : v.depth ≤ levelLimit) : parse v.write = .ok v := by
  have read := (meets_value levelLimit whole settled).reads shallow endsNumeral_nil
  rw [List.append_nil] at read
  simp only [parse, parseWhole, read]
  rfl

/-- A written object is parsed whatever the order of its members is. Names that are given twice have the last value. -/
theorem parse_write_object {members : List (String × Value)}
    (whole : ∀ member ∈ members, member.2.Everywhere Value.IsWhole)
    (settled : ∀ member ∈ members, member.2.Everywhere Value.IsSettled)
    (shallow : ∀ member ∈ members, member.2.depth < levelLimit) :
    parse (Value.object members).write = .ok (.object (Members.ofList members)) := by
  have meets : ∀ member ∈ members, (value 126).Meets 126 member.2 := fun member stands =>
    meets_value 126 (whole member stands) (settled member stands)
  have inside : ∀ member ∈ members, member.2.depth ≤ 126 := fun member stands =>
    Nat.le_of_lt_succ (shallow member stands)
  have outermost : value levelLimit = valueReader (some (value 126)) := rfl
  have read : (value levelLimit).run (Value.object members).write = .ok (.object (Members.ofList members), []) := by
    rw [outermost, ← List.append_nil (Value.object members).write, valueReader_object,
      readMembers_reads meets inside]
    rfl
  simp only [parse, parseWhole, read]
  rfl

/-- A value that nests too deep is written to a text that is refused for its depth. -/
theorem parse_write_refused {v : Value} (whole : v.Everywhere Value.IsWhole)
    (settled : v.Everywhere Value.IsSettled) (deep : levelLimit < v.depth) :
    ∃ error, parse v.write = .error error ∧ error.reason = .tooDeep := by
  obtain ⟨unread, refused⟩ := (meets_value levelLimit whole settled).refuses deep endsNumeral_nil
  rw [List.append_nil] at refused
  simp only [parse, parseWhole, refused]
  exact ⟨_, rfl, rfl⟩

end BundleServer.Json
