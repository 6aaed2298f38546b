import BundleServer.Http.Percent

/-!
# Spellings

The same bytes can be spelled in many ways in a request target, since every byte may be written as an escape, with
digits of either case. A byte that means something in the target itself has to be. Whatever the spelling, the lenient
reader finds the bytes that are meant (`decodeLenient_of_spells`), and the raw spelling has no sign of the target in it.
-/

namespace BundleServer.Percent

/-- Does the byte mean something in a target, if it is not escaped? These are `%`, `/`, `?` and `#`. -/
def isReserved (b : UInt8) : Bool := b = sign || b = 0x2F || b = 0x3F || b = 0x23

/-- Is the first byte string a spelling of the second one? Each byte stands for itself, if it may, or is escaped. -/
inductive Spells : Bytes → Bytes → Prop where
  | nil : Spells [] []
  | plain {b : UInt8} {raw meant : Bytes} (free : isReserved b = false) (rest : Spells raw meant) :
    Spells (b :: raw) (b :: meant)
  | escaped {high low b : UInt8} {raw meant : Bytes} (pair : pair? high low = some b) (rest : Spells raw meant) :
    Spells (sign :: high :: low :: raw) (b :: meant)

theorem isReserved_sign : isReserved sign = true := rfl

theorem ne_sign_of_isReserved {b : UInt8} (free : isReserved b = false) : b ≠ sign := by
  rintro rfl
  rw [isReserved_sign] at free
  cases free

/-- The two characters of an escape are digits. -/
theorem isSome_of_pair? {high low b : UInt8} (pair : pair? high low = some b) :
    (Text.hexValue? high).isSome ∧ (Text.hexValue? low).isSome := by
  unfold pair? at pair
  cases first : Text.hexValue? high with
  | none => simp [first] at pair
  | some value =>
    cases second : Text.hexValue? low with
    | none => simp [first, second] at pair
    | some value' => exact ⟨rfl, rfl⟩

theorem decodeLenient_plain {b : UInt8} (other : b ≠ sign) (rest : Bytes) :
    decodeLenient (b :: rest) = b :: decodeLenient rest := by
  rw [decodeLenient.eq_def]
  simp only [if_neg other]

theorem decodeLenient_escaped {high low b : UInt8} (pair : pair? high low = some b) (rest : Bytes) :
    decodeLenient (sign :: high :: low :: rest) = b :: decodeLenient rest := by
  rw [decodeLenient.eq_def]
  simp only [if_true, pair]

/-- Whatever the spelling, it is read as the bytes that are meant. -/
theorem decodeLenient_of_spells {raw meant : Bytes} (spells : Spells raw meant) : decodeLenient raw = meant := by
  induction spells with
  | nil => rfl
  | plain free rest ih => rw [decodeLenient_plain (ne_sign_of_isReserved free), ih]
  | escaped pair rest ih => rw [decodeLenient_escaped pair, ih]

/-- A byte that means something in a target, and is neither a percent sign nor a digit, stands in no spelling. -/
theorem not_mem_of_spells {raw meant : Bytes} (spells : Spells raw meant) {b : UInt8} (reserved : isReserved b = true)
    (other : b ≠ sign) (noDigit : Text.hexValue? b = none) : b ∉ raw := by
  have notDigit {digit : UInt8} (isDigit : (Text.hexValue? digit).isSome) : b ≠ digit := by
    rintro rfl
    rw [noDigit] at isDigit
    cases isDigit
  induction spells with
  | nil => exact List.not_mem_nil
  | plain free rest ih =>
    rw [List.mem_cons, not_or]
    refine ⟨?_, ih⟩
    rintro rfl
    rw [reserved] at free
    cases free
  | escaped pair rest ih =>
    obtain ⟨high, low⟩ := isSome_of_pair? pair
    simp only [List.mem_cons, not_or]
    exact ⟨other, notDigit high, notDigit low, ih⟩

end BundleServer.Percent
