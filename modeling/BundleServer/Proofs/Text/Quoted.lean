import BundleServer.Text.Quoted

/-!
# Quoted text read back

What is written for a character is read as that character, whatever follows: no letter behind a backslash stands for two
characters, the brace behind the digits of a code point is none of them, and what stands for itself is neither a quote
nor a backslash. So a text is known from its quoted form (`decode_encode`), also where this stands at the end of a
message (`quoted?_append_quote`).
-/

namespace BundleServer.Text.Quoted

theorem unletter?_of_letter? {c letter : Char} (written : letter? c = some letter) :
    unletter? letter = some c ∧ letter ≠ 'u' := by
  unfold letter? at written
  split at written <;> cases written
  all_goals exact ⟨rfl, by decide⟩

theorem ne_of_letter?_eq_none {c : Char} (plain : letter? c = none) : c ≠ '\\' ∧ c ≠ '"' := by
  constructor
  · rintro rfl
    cases plain
  · rintro rfl
    cases plain

theorem hexValue?_digitChar :
    ∀ digit < 16, hexValue? (Nat.digitChar digit) = some digit ∧ Nat.digitChar digit ≠ '\x7d' := by
  decide

theorem decodeFrom_digitChar {digit : Nat} (small : digit < 16) (value : Nat) (rest : List Char) :
    decodeFrom (.digits value) (Nat.digitChar digit :: rest) = decodeFrom (.digits (value * 16 + digit)) rest := by
  obtain ⟨read, inside⟩ := hexValue?_digitChar digit small
  rw [decodeFrom, if_neg inside, read]

/-- The digits of a number are read as the number, the last one behind what all others give. -/
theorem decodeFrom_toDigits (n : Nat) (rest : List Char) :
    decodeFrom (.digits 0) (Nat.toDigits 16 n ++ rest) = decodeFrom (.digits n) rest := by
  induction n using Nat.strongRecOn generalizing rest with
  | ind n ih =>
    by_cases short : n < 16
    · rw [Nat.toDigits_of_lt_base short, List.singleton_append, decodeFrom_digitChar short, Nat.zero_mul, Nat.zero_add]
    · have last : n % 16 < 16 := Nat.mod_lt n (by decide)
      rw [Nat.toDigits_of_base_le (by decide) (Nat.not_lt.1 short), List.append_assoc, ih (n / 16) (by omega),
        List.singleton_append, decodeFrom_digitChar last, Nat.div_add_mod']

/-- A character that is written by its code point is read as itself. -/
theorem decodeFrom_codePoint (c : Char) (rest : List Char) :
    decodeFrom .plain (['\\', 'u', '\x7b'] ++ Nat.toDigits 16 c.toNat ++ ['\x7d'] ++ rest) =
      (decodeFrom .plain rest).map (c :: ·) := by
  have opening : ∀ behind, decodeFrom .plain ('\\' :: 'u' :: '\x7b' :: behind) = decodeFrom (.digits 0) behind :=
    fun behind => rfl
  have valid : c.toNat.isValidChar := c.valid
  simp only [List.cons_append, List.nil_append, List.append_assoc]
  rw [opening, decodeFrom_toDigits, decodeFrom, if_pos rfl, if_pos valid, Char.ofNat_toNat]

theorem decodeFrom_encodeChar (c : Char) (rest : List Char) :
    decodeFrom .plain (encodeChar c ++ rest) = (decodeFrom .plain rest).map (c :: ·) := by
  unfold encodeChar
  split
  · rename_i letter written
    obtain ⟨back, other⟩ := unletter?_of_letter? written
    have escaped : decodeFrom .plain ('\\' :: letter :: rest) = decodeFrom .escaped (letter :: rest) := rfl
    rw [List.cons_append, List.singleton_append, escaped, decodeFrom, if_neg other, back]
  · rename_i plain
    split
    · exact decodeFrom_codePoint c rest
    · obtain ⟨notBackslash, notQuote⟩ := ne_of_letter?_eq_none plain
      rw [List.singleton_append, decodeFrom, if_neg notBackslash, if_neg notQuote]

/-- Every text is read back from what is written between the quotes. -/
theorem decode_encode (chars : List Char) : decode (encode chars) = some chars := by
  unfold decode
  induction chars with
  | nil => rfl
  | cons c chars ih =>
    rw [encode, List.flatMap_cons, decodeFrom_encodeChar, ← encode, ih]
    rfl

/-- The text that is quoted at the end of a message. -/
def quoted? (message : String) : Option String :=
  match message.toList.dropWhile (· ≠ '"') with
  | [] => none
  | _ :: inside => (decode inside.dropLast).map String.ofList

theorem quoted?_append_quote {front : String} (plain : '"' ∉ front.toList) (text : String) :
    quoted? (front ++ quote text) = some text := by
  have before : ∀ c ∈ front.toList, decide (c ≠ '"') = true := fun c member =>
    decide_eq_true fun same => plain (same ▸ member)
  have rest : (front ++ quote text).toList.dropWhile (· ≠ '"') = '"' :: (encode text.toList ++ ['"']) := by
    rw [String.toList_append, List.dropWhile_append_of_pos before, quote, String.toList_ofList]
    rfl
  unfold quoted?
  rw [rest]
  simp only [List.dropLast_concat, decode_encode, Option.map_some, String.ofList_toList]

end BundleServer.Text.Quoted
