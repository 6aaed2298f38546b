import BundleServer.Json.Literal
import BundleServer.Proofs.Text.Utf8

/-!
# String literals read back

The inside of a written literal is read as the bytes of its text. There are three ways in which a character is
written: an escape of two bytes, an escape by code for the other controls, and its own bytes, none of which is a
quote, a backslash or a control.
-/

namespace BundleServer.Json.Literal

/-- A byte that stands for itself inside a literal. -/
def IsPlain (b : UInt8) : Prop := b ≠ quote ∧ b ≠ backslash ∧ 0x20 ≤ b.toNat

theorem readInside_quote (rest : Bytes) : readInside (quote :: rest) = .ok ([], rest) := by
  rw [readInside, if_pos rfl]

theorem readInside_plain {b : UInt8} (plain : IsPlain b) {rest inside final : Bytes}
    (read : readInside rest = .ok (inside, final)) :
    readInside (b :: rest) = .ok (b :: inside, final) := by
  obtain ⟨notQuote, notBackslash, visible⟩ := plain
  have notControl : ¬ b < 0x20 := by
    rw [UInt8.lt_iff_toNat_lt]
    exact Nat.not_lt.mpr visible
  rw [readInside, if_neg notQuote, if_neg notBackslash, if_neg notControl, read]

theorem readInside_append_plain {front : Bytes} (plain : ∀ b ∈ front, IsPlain b) {rest inside final : Bytes}
    (read : readInside rest = .ok (inside, final)) :
    readInside (front ++ rest) = .ok (front ++ inside, final) := by
  induction front with
  | nil => exact read
  | cons b front ih =>
    have others := ih fun d member => plain d (List.mem_cons_of_mem b member)
    exact readInside_plain (plain b List.mem_cons_self) others

/-- What an escape stands for goes in front of the rest of the inside. -/
theorem readInside_escape (front : Bytes) {rest plain inside final : Bytes}
    (escaped : escape.run (front ++ rest) = .ok (plain, rest))
    (read : readInside rest = .ok (inside, final)) :
    readInside (backslash :: (front ++ rest)) = .ok (plain ++ inside, final) := by
  have notQuote : backslash ≠ quote := by decide
  rw [readInside, if_neg notQuote, if_pos rfl]
  split
  · rename_i found
    rw [escaped] at found
    cases found
    rw [read]
  · rename_i found
    rw [escaped] at found
    cases found

theorem hexNumber?_control :
    ∀ n < 0x20, hexNumber? [0x30, 0x30, hexDigit (n / 16), hexDigit (n % 16)] = some n := by
  decide

/-- An escape by code is read as the control it was written for. -/
theorem escape_control {n : Nat} (control : n < 0x20) (rest : Bytes) :
    escape.run ([0x75, 0x30, 0x30, hexDigit (n / 16), hexDigit (n % 16)] ++ rest)
      = .ok (Utf8.encodeChar (Char.ofNat n), rest) := by
  have notTrailing : isTrailing n = false := by
    simp only [isTrailing, Bool.and_eq_false_iff, decide_eq_false_iff_not]
    omega
  have notLeading : isLeading n = false := by
    simp only [isLeading, Bool.and_eq_false_iff, decide_eq_false_iff_not]
    omega
  simp only [escape, codeEscape, fourDigits, List.cons_append, List.nil_append, if_true,
    hexNumber?_control n control, notTrailing, notLeading, Bool.false_eq_true, if_false]

/-- The bytes of a character that needs no escape are plain. -/
theorem isPlain_of_mem_encodeChar {c : Char} (notQuote : c ≠ '"') (notBackslash : c ≠ '\\')
    (visible : 0x20 ≤ c.toNat) : ∀ b ∈ Utf8.encodeChar c, IsPlain b := by
  intro b member
  have own := Utf8.toNat_of_mem_encodeChar member
  refine ⟨fun same => notQuote ?_, fun same => notBackslash ?_, ?_⟩
  · subst same
    exact Char.toNat_inj.mp (own (by decide))
  · subst same
    exact Char.toNat_inj.mp (own (by decide))
  · by_cases ascii : b.toNat < 0x80
    · have := own ascii
      omega
    · omega

/-- A written character is read as its bytes. -/
theorem readInside_writeChar (c : Char) {rest inside final : Bytes}
    (read : readInside rest = .ok (inside, final)) :
    readInside (writeChar c ++ rest) = .ok (Utf8.encodeChar c ++ inside, final) := by
  unfold writeChar
  split
  · exact readInside_escape [quote] rfl read
  · exact readInside_escape [backslash] rfl read
  · exact readInside_escape [0x62] rfl read
  · exact readInside_escape [0x66] rfl read
  · exact readInside_escape [0x6E] rfl read
  · exact readInside_escape [0x72] rfl read
  · exact readInside_escape [0x74] rfl read
  · rename_i notQuote notBackslash _ _ _ _ _
    by_cases control : c.toNat < 0x20
    · have escaped := escape_control control rest
      rw [Char.ofNat_toNat] at escaped
      rw [if_pos control]
      exact readInside_escape _ escaped read
    · rw [if_neg control]
      exact readInside_append_plain (isPlain_of_mem_encodeChar notQuote notBackslash (by omega)) read

theorem readInside_flatMap_writeChar (chars : List Char) (rest : Bytes) :
    readInside (chars.flatMap writeChar ++ quote :: rest) = .ok (Utf8.encodeList chars, rest) := by
  induction chars with
  | nil => exact readInside_quote rest
  | cons c chars ih =>
    rw [List.flatMap_cons, List.append_assoc, readInside_writeChar c ih]
    rfl

/-- A text is read back from its literal, behind the opening quote. -/
theorem reader_write (text : String) (rest : Bytes) :
    reader.run (text.toList.flatMap writeChar ++ quote :: rest) = .ok (text, rest) := by
  have inside := readInside_flatMap_writeChar text.toList rest
  simp only [reader, inside, Utf8.decode?_encodeList, String.ofList_toList]

theorem write_append (text : String) (rest : Bytes) :
    write text ++ rest = quote :: (text.toList.flatMap writeChar ++ quote :: rest) := by
  simp [write]

end BundleServer.Json.Literal
