import BundleServer.Json.Printer
import BundleServer.Json.Numeral
import BundleServer.Proofs.Text.Utf8

/-!
# Whole numbers read back

The digits of a whole number are read as that number if it fits 64 bits, signed for a negative one. What follows must
not continue the numeral. Conversely every whole number that is read fits 64 bits.
-/

namespace BundleServer.Json

/-- A whole number that a signed or an unsigned word of 64 bits holds. -/
def Fits (value : Int) : Prop := -(Nat.pow 2 63 : Nat) ≤ value ∧ value < UInt64.size

/-- The bytes do not continue a numeral in front of them. -/
def EndsNumeral (rest : Bytes) : Prop :=
  ∀ b ∈ rest.head?, isDigit b = false ∧ b ≠ 0x2E ∧ b ≠ 0x65 ∧ b ≠ 0x45

/-- The number of a digit. -/
def digitOf (c : Char) : Nat := c.toNat - 0x30

theorem toNat_of_isDigit {c : Char} (digit : c.isDigit = true) : 0x30 ≤ c.toNat ∧ c.toNat ≤ 0x39 := by
  simp only [Char.isDigit, Bool.and_eq_true, decide_eq_true_eq, ge_iff_le, UInt32.le_iff_toNat_le] at digit
  exact digit

theorem byte_of_isDigit {c : Char} (digit : c.isDigit = true) : c.toNat.toUInt8.toNat = c.toNat := by
  have bounds := toNat_of_isDigit digit
  apply Utf8.toNat_toUInt8
  omega

/-- A digit is written as one byte. -/
theorem encodeList_cons_of_isDigit {c : Char} (digit : c.isDigit = true) (chars : List Char) :
    Utf8.encodeList (c :: chars) = c.toNat.toUInt8 :: Utf8.encodeList chars := by
  have bounds := toNat_of_isDigit digit
  have ascii : c.toNat < 0x80 := by omega
  have single : Utf8.encodeChar c = [c.toNat.toUInt8] := by
    unfold Utf8.encodeChar
    exact if_pos ascii
  rw [Utf8.encodeList, List.flatMap_cons, single]
  rfl

theorem isDigit_toUInt8 {c : Char} (digit : c.isDigit = true) : isDigit c.toNat.toUInt8 = true := by
  have bounds := toNat_of_isDigit digit
  simp only [isDigit, Bool.and_eq_true, decide_eq_true_eq, UInt8.le_iff_toNat_le, byte_of_isDigit digit]
  exact bounds

theorem takeDigits_of_ends {rest : Bytes} (ends : EndsNumeral rest) : takeDigits rest = ([], rest) := by
  cases rest with
  | nil => rfl
  | cons b rest =>
    have last : isDigit b = false := (ends b rfl).1
    simp [takeDigits, last]

theorem takeDigits_encodeList {chars : List Char} (digits : ∀ c ∈ chars, c.isDigit = true) {rest : Bytes}
    (ends : EndsNumeral rest) : takeDigits (Utf8.encodeList chars ++ rest) = (chars.map digitOf, rest) := by
  induction chars with
  | nil => exact takeDigits_of_ends ends
  | cons c chars ih =>
    have digit : c.isDigit = true := digits c List.mem_cons_self
    have others := ih fun d member => digits d (List.mem_cons_of_mem c member)
    simp only [takeDigits, Prod.mk.injEq] at others
    rw [encodeList_cons_of_isDigit digit, List.cons_append]
    simp only [takeDigits, List.takeWhile_cons, List.dropWhile_cons, isDigit_toUInt8 digit, if_true, List.map_cons,
      byte_of_isDigit digit, others, digitOf]

/-- Reading digits on never makes a number smaller. -/
theorem le_ofDigitChars (chars : List Char) (start : Nat) : start ≤ Nat.ofDigitChars 10 chars start := by
  induction chars generalizing start with
  | nil => simp
  | cons c chars ih =>
    rw [Nat.ofDigitChars_cons]
    have := ih (10 * start + (c.toNat - '0'.toNat))
    omega

namespace Numeral

theorem gather_le {limit value : Nat} (within : value ≤ limit) (digits : List Nat) :
    (gather limit value digits).1 ≤ limit := by
  induction digits generalizing value with
  | nil => exact within
  | cons digit digits ih =>
    unfold gather
    split
    · rename_i next
      exact ih next
    · exact within

/-- Digits of a number within the limit are all gathered. -/
theorem gather_map_digitOf {limit : Nat} (chars : List Char) {start : Nat}
    (within : Nat.ofDigitChars 10 chars start ≤ limit) :
    gather limit start (chars.map digitOf) = (Nat.ofDigitChars 10 chars start, []) := by
  induction chars generalizing start with
  | nil => simp [gather]
  | cons c chars ih =>
    have next : start * 10 + digitOf c = 10 * start + (c.toNat - '0'.toNat) := by
      rw [Nat.mul_comm]
      rfl
    rw [Nat.ofDigitChars_cons] at within ⊢
    have bound := le_ofDigitChars chars (10 * start + (c.toNat - '0'.toNat))
    rw [List.map_cons, gather, next, if_pos (by omega)]
    exact ih within

/-- Only zero is written with a zero in front. -/
theorem head?_toDigits_ne_zero {n : Nat} (positive : 0 < n) : (Nat.toDigits 10 n).head? ≠ some '0' := by
  induction n using Nat.strongRecOn with
  | _ n ih =>
    by_cases short : n < 10
    · rw [Nat.toDigits_of_lt_base short, List.head?_cons]
      match n, short, positive with
      | 1, _, _ | 2, _, _ | 3, _, _ | 4, _, _ | 5, _, _ | 6, _, _ | 7, _, _ | 8, _, _ | 9, _, _ => decide
    · have front := ih (n / 10) (by omega) (by omega)
      rw [Nat.toDigits_of_base_le (by omega) (by omega), List.head?_append]
      cases digits : Nat.toDigits 10 (n / 10) with
      | nil => exact absurd digits Nat.toDigits_ne_nil
      | cons c chars => simpa [digits] using front

theorem readWhole_toDigits (n : Nat) {rest : Bytes} (ends : EndsNumeral rest) :
    readWhole (Utf8.encodeList (Nat.toDigits 10 n) ++ rest) = .ok ((Nat.toDigits 10 n).map digitOf, rest) := by
  by_cases zero : n = 0
  · subst zero
    have stands : rest.head?.any isDigit = false := by
      cases rest with
      | nil => rfl
      | cons b rest => simpa using (ends b rfl).1
    have first : Utf8.encodeList (Nat.toDigits 10 0) ++ rest = 0x30 :: rest := rfl
    rw [first, readWhole, if_pos rfl, stands]
    rfl
  · have isDigits : ∀ c ∈ Nat.toDigits 10 n, c.isDigit = true := fun c member =>
      Nat.isDigit_of_mem_toDigits (by decide) (by decide) member
    have taken := takeDigits_encodeList isDigits ends
    have head := head?_toDigits_ne_zero (Nat.pos_of_ne_zero zero)
    cases digits : Nat.toDigits 10 n with
    | nil => exact absurd digits Nat.toDigits_ne_nil
    | cons c chars =>
      rw [digits] at isDigits taken head
      have digit : c.isDigit = true := isDigits c List.mem_cons_self
      have notZero : c.toNat.toUInt8 ≠ 0x30 := by
        intro same
        have byte := byte_of_isDigit digit
        rw [same] at byte
        exact head (congrArg some (Char.toNat_inj.mp byte.symm))
      rw [encodeList_cons_of_isDigit digit, List.cons_append] at taken ⊢
      rw [readWhole, if_neg notZero, if_pos (isDigit_toUInt8 digit), taken]

theorem readParts_toDigits (negative : Bool) (n : Nat) {rest : Bytes} (ends : EndsNumeral rest) :
    readParts negative (Utf8.encodeList (Nat.toDigits 10 n) ++ rest)
      = .ok (⟨negative, (Nat.toDigits 10 n).map digitOf, [], none⟩, rest) := by
  have noFraction : readFraction rest = .ok ([], rest) := by
    cases rest with
    | nil => rfl
    | cons b rest => rw [readFraction, if_neg (ends b rfl).2.1]
  have noExponent : readExponent rest = .ok (none, rest) := by
    cases rest with
    | nil => rfl
    | cons b rest =>
      have next := (ends b rfl).2.2
      rw [readExponent, if_neg (by simp [next])]
  simp only [readParts, readWhole_toDigits n ends, noFraction, noExponent, bind, Except.bind, pure, Except.pure]

/-- All digits of a number that fits are gathered. -/
theorem gather_toDigits {n : Nat} (fits : n < UInt64.size) :
    gather significandLimit 0 ((Nat.toDigits 10 n).map digitOf) = (n, []) := by
  have whole : Nat.ofDigitChars 10 (Nat.toDigits 10 n) 0 = n := Nat.ofDigitChars_ten_toDigits
  have within : Nat.ofDigitChars 10 (Nat.toDigits 10 n) 0 ≤ significandLimit := by
    rw [whole]
    exact Nat.le_sub_one_of_lt fits
  rw [gather_map_digitOf _ within, whole]

/-- A whole number is read back from its digits. -/
theorem reader_natural {n : Nat} (fits : n < UInt64.size) {rest : Bytes} (ends : EndsNumeral rest) :
    (reader false).run (Utf8.encodeList (Nat.toDigits 10 n) ++ rest) = .ok (.integer n, rest) := by
  simp only [reader, readParts_toDigits false n ends, value, gather_toDigits fits, Bool.not_false, if_true]

/-- A negative whole number is read back from the digits behind its sign. -/
theorem reader_negative {n : Nat} (positive : 0 < n) (fits : n ≤ Nat.pow 2 63) {rest : Bytes}
    (ends : EndsNumeral rest) :
    (reader true).run (Utf8.encodeList (Nat.toDigits 10 n) ++ rest) = .ok (.integer (-n), rest) := by
  have within : 0 < n ∧ n ≤ Nat.pow 2 63 := ⟨positive, fits⟩
  have gathered : n < UInt64.size := Nat.lt_of_le_of_lt fits (by decide)
  simp only [reader, readParts_toDigits true n ends, value, gather_toDigits gathered, Bool.not_true,
    Bool.false_eq_true, if_false, within, and_self, if_true]

theorem double_ne_integer {negative : Bool} {significand : Nat} {power : Int} {rest : Bytes} {whole : Int} :
    double negative significand power rest ≠ .ok (.integer whole) := by
  unfold double
  split <;> simp

/-- Every whole number that is read fits 64 bits. -/
theorem fits_of_value {numeral : Numeral} {rest : Bytes} {whole : Int}
    (found : numeral.value rest = .ok (.integer whole)) : Fits whole := by
  have bound : (gather significandLimit 0 numeral.whole).1 ≤ significandLimit :=
    gather_le (Nat.zero_le _) numeral.whole
  have limit : significandLimit + 1 = UInt64.size := rfl
  unfold value at found
  split at found
  rename_i gathered raised taken
  rw [taken] at bound
  split at found
  · split at found
    · cases found
      constructor <;> omega
    · split at found
      · cases found
        constructor <;> omega
      · exact absurd found double_ne_integer
  · simp only at found
    repeat' split at found
    all_goals first | exact absurd found double_ne_integer | simp at found

theorem fits_of_reader {negative : Bool} {bytes rest : Bytes} {whole : Int}
    (found : (reader negative).run bytes = .ok (.integer whole, rest)) : Fits whole := by
  simp only [reader] at found
  split at found
  · split at found
    · rename_i value
      cases found
      exact fits_of_value value
    · cases found
  · cases found

end Numeral

end BundleServer.Json
