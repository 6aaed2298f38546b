import BundleServer.Json.Reader
import BundleServer.Json.Value

/-!
# Numerals

A numeral is read in two steps: its parts as they are written, then its value. A numeral without fraction and
exponent is a whole number if it fits 64 bits, signed for negative ones; every other one is a double.

The double is not always the nearest one. Digits are gathered into a significand as long as it fits 64 bits. Behind
that, whole digits only raise the exponent and digits of the fraction are dropped. The significand is then rounded
and multiplied or divided by a rounded power of ten.
-/

namespace BundleServer.Json

/-- Is the byte a decimal digit? -/
def isDigit (b : UInt8) : Bool := 0x30 ≤ b && b ≤ 0x39

/-- The digits in front, as numbers below ten, and what follows them. -/
def takeDigits (bytes : Bytes) : List Nat × Bytes :=
  ((bytes.takeWhile isDigit).map (·.toNat - 0x30), bytes.dropWhile isDigit)

/-- The exponent of a numeral. -/
structure Exponent where
  negative : Bool
  digits : List Nat
  deriving DecidableEq, Repr

/-- The parts of a numeral. There is a fraction if it has digits. -/
structure Numeral where
  negative : Bool
  whole : List Nat
  fraction : List Nat
  exponent? : Option Exponent
  deriving DecidableEq, Repr

namespace Numeral

/-- Reads the digits in front of the point. A zero stands alone. -/
def readWhole : Bytes → Except Fault (List Nat × Bytes)
  | [] => .error (.behind .endInValue [])
  | b :: rest =>
    if b = 0x30 then
      if rest.head?.any isDigit then .error (.onNext .badNumber rest) else .ok ([0], rest)
    else if isDigit b then .ok (takeDigits (b :: rest))
    else .error (.behind .badNumber rest)

/-- Reads the fraction, if a point follows. -/
def readFraction : Bytes → Except Fault (List Nat × Bytes)
  | [] => .ok ([], [])
  | b :: rest =>
    if b = 0x2E then
      match takeDigits rest with
      | ([], []) => .error (.behind .endInValue [])
      | ([], next) => .error (.onNext .badNumber next)
      | (digits, behind) => .ok (digits, behind)
    else .ok ([], b :: rest)

/-- Is there a sign in front, and is it a minus? -/
def takeSign : Bytes → Bool × Bytes
  | [] => (false, [])
  | b :: rest => if b = 0x2B then (false, rest) else if b = 0x2D then (true, rest) else (false, b :: rest)

/-- Reads the exponent, if its letter follows. -/
def readExponent : Bytes → Except Fault (Option Exponent × Bytes)
  | [] => .ok (none, [])
  | b :: rest =>
    if b = 0x65 ∨ b = 0x45 then
      match takeSign rest with
      | (_, []) => .error (.behind .endInValue [])
      | (negative, d :: behind) =>
        if isDigit d then
          .ok (some ⟨negative, (takeDigits (d :: behind)).1⟩, (takeDigits (d :: behind)).2)
        else .error (.behind .badNumber behind)
    else .ok (none, b :: rest)

/-- Appends digits to a number as long as it stays within the limit; with the digits that are left. -/
def gather (limit : Nat) (value : Nat) : List Nat → Nat × List Nat
  | [] => (value, [])
  | digit :: digits =>
    if value * 10 + digit ≤ limit then gather limit (value * 10 + digit) digits
    else (value, digit :: digits)

/-- The greatest significand. -/
def significandLimit : Nat := UInt64.size - 1

/-- The greatest exponent that is read as a number. -/
def exponentLimit : Nat := Nat.pow 2 31 - 1

/-- The greatest power of ten by which a size is scaled at once. -/
def greatestPower : Nat := 308

/-- Divides a size by a power of ten. -/
def shrink (steps : Nat) (power : Nat) : Nat :=
  if power ≤ greatestPower then Binary64.div steps (Binary64.ofNat (Nat.pow 10 power))
  else if steps = 0 then 0
  else shrink (Binary64.div steps (Binary64.ofNat (Nat.pow 10 greatestPower))) (power - greatestPower)
termination_by power
decreasing_by simp only [greatestPower] at *; omega

/-- The size of a significand times a power of ten, if it is finite. -/
def scale? (significand : Nat) (power : Int) : Option Nat :=
  if power < 0 then some (shrink (Binary64.ofNat significand) power.natAbs)
  else if power ≤ greatestPower then
    let steps := Binary64.mul (Binary64.ofNat significand) (Binary64.ofNat (Nat.pow 10 power.toNat))
    if Binary64.isFinite steps then some steps else none
  else if significand = 0 then some 0
  else none

/-- The double with this sign, significand and power of ten. -/
def double (negative : Bool) (significand : Nat) (power : Int) (rest : Bytes) : Except Fault Number :=
  match scale? significand power with
  | some steps => .ok (.float ⟨negative, steps⟩)
  | none => .error (.behind .numberTooLarge rest)

/-- The value of a numeral in front of `rest`. -/
def value (numeral : Numeral) (rest : Bytes) : Except Fault Number :=
  let (whole, raised) := gather significandLimit 0 numeral.whole
  match numeral.fraction, numeral.exponent?, raised with
  | [], none, [] =>
    if !numeral.negative then .ok (.integer whole)
    else if 0 < whole ∧ whole ≤ Nat.pow 2 63 then .ok (.integer (-whole))
    else double true whole 0 rest
  | fraction, exponent?, raised =>
    let (significand, dropped) := gather significandLimit whole fraction
    let power : Int := raised.length - (fraction.length - dropped.length : Nat)
    match exponent? with
    | none => double numeral.negative significand power rest
    | some exponent =>
      match gather exponentLimit 0 exponent.digits with
      | (shift, []) =>
        double numeral.negative significand (if exponent.negative then power - shift else power + shift) rest
      | (_, _ :: unread) =>
        if significand ≠ 0 ∧ !exponent.negative then
          .error ⟨.numberTooLarge, unread.length + rest.length⟩
        else .ok (.float ⟨numeral.negative, 0⟩)

/-- Reads the parts of a numeral behind its sign. -/
def readParts (negative : Bool) (bytes : Bytes) : Except Fault (Numeral × Bytes) := do
  let (whole, bytes) ← readWhole bytes
  let (fraction, bytes) ← readFraction bytes
  let (exponent?, bytes) ← readExponent bytes
  return (⟨negative, whole, fraction, exponent?⟩, bytes)

theorem length_takeDigits_le (bytes : Bytes) : (takeDigits bytes).2.length ≤ bytes.length :=
  (List.dropWhile_suffix _).length_le

theorem length_takeDigits_cons_lt {b : UInt8} (digit : isDigit b = true) (rest : Bytes) :
    (takeDigits (b :: rest)).2.length < (b :: rest).length := by
  have := length_takeDigits_le rest
  simp only [takeDigits, List.dropWhile_cons, digit, if_true, List.length_cons] at *
  omega

theorem length_readWhole_lt {bytes rest : Bytes} {digits : List Nat}
    (h : readWhole bytes = .ok (digits, rest)) : rest.length < bytes.length := by
  cases bytes with
  | nil => simp [readWhole] at h
  | cons b bytes =>
    simp only [readWhole] at h
    split at h
    · split at h
      · simp at h
      · simp only [Except.ok.injEq, Prod.mk.injEq] at h
        simp [← h.2]
    · split at h
      · rename_i digit
        simp only [Except.ok.injEq] at h
        have := length_takeDigits_cons_lt digit bytes
        rwa [h] at this
      · simp at h

theorem length_readFraction_le {bytes rest : Bytes} {digits : List Nat}
    (h : readFraction bytes = .ok (digits, rest)) : rest.length ≤ bytes.length := by
  cases bytes with
  | nil => simp_all [readFraction]
  | cons b bytes =>
    have bound := length_takeDigits_le bytes
    simp only [readFraction] at h
    split at h
    · split at h
      · simp at h
      · simp at h
      · rename_i taken
        simp only [Except.ok.injEq, Prod.mk.injEq] at h
        rw [taken] at bound
        simp only [List.length_cons, ← h.2]
        exact Nat.le_succ_of_le bound
    · simp only [Except.ok.injEq, Prod.mk.injEq] at h
      simp [← h.2]

theorem length_takeSign_le (bytes : Bytes) : (takeSign bytes).2.length ≤ bytes.length := by
  cases bytes with
  | nil => simp [takeSign]
  | cons b bytes =>
    simp only [takeSign]
    split
    · simp
    · split <;> simp

theorem length_readExponent_le {bytes rest : Bytes} {exponent? : Option Exponent}
    (h : readExponent bytes = .ok (exponent?, rest)) : rest.length ≤ bytes.length := by
  cases bytes with
  | nil => simp_all [readExponent]
  | cons b bytes =>
    have bound := length_takeSign_le bytes
    simp only [readExponent] at h
    split at h
    · split at h
      · simp at h
      · rename_i taken
        split at h
        · rename_i behind digit
          simp only [Except.ok.injEq, Prod.mk.injEq] at h
          have := length_takeDigits_cons_lt digit behind
          rw [taken] at bound
          simp only [← h.2, List.length_cons] at *
          omega
        · simp at h
    · simp only [Except.ok.injEq, Prod.mk.injEq] at h
      simp [← h.2]

theorem length_readParts_lt {negative : Bool} {bytes rest : Bytes} {numeral : Numeral}
    (h : readParts negative bytes = .ok (numeral, rest)) : rest.length < bytes.length := by
  unfold readParts at h
  simp only [bind, Except.bind, pure, Except.pure] at h
  split at h
  · simp at h
  · rename_i whole
    split at h
    · simp at h
    · rename_i fraction
      split at h
      · simp at h
      · rename_i exponent
        simp only [Except.ok.injEq, Prod.mk.injEq] at h
        have := length_readWhole_lt whole
        have := length_readFraction_le fraction
        have := length_readExponent_le exponent
        rw [← h.2]
        omega

/-- Reads a numeral behind its sign. -/
def reader (negative : Bool) : Reader Number where
  run bytes := match readParts negative bytes with
    | .ok (numeral, rest) => match numeral.value rest with
      | .ok number => .ok (number, rest)
      | .error fault => .error fault
    | .error fault => .error fault
  shrinks := by
    intro bytes number rest h
    split at h
    · rename_i found
      split at h
      · simp only [Except.ok.injEq, Prod.mk.injEq] at h
        exact h.2 ▸ length_readParts_lt found
      · simp at h
    · simp at h

end Numeral

end BundleServer.Json
