import BundleServer.Json.Reader
import BundleServer.Text.Hex
import BundleServer.Text.Utf8

/-!
# String literals

The inside of a string literal is read as bytes: a byte stands for itself, and an escape for the bytes of its
character. The whole is UTF-8 or refused. Written literals escape only quotes, backslashes and controls.
-/

namespace BundleServer.Json.Literal

/-- The byte `"`. -/
def quote : UInt8 := 0x22

/-- The byte `\`. -/
def backslash : UInt8 := 0x5C

/-- What the letter behind a backslash stands for. -/
def unescape? (b : UInt8) : Option UInt8 :=
  if b = quote then some quote
  else if b = backslash then some backslash
  else if b = 0x2F then some 0x2F
  else if b = 0x62 then some 0x08
  else if b = 0x66 then some 0x0C
  else if b = 0x6E then some 0x0A
  else if b = 0x72 then some 0x0D
  else if b = 0x74 then some 0x09
  else none

/-- The value of hexadecimal digits, most significant first. -/
def hexNumber? (digits : Bytes) : Option Nat :=
  digits.foldl (fun value? b => do return (← value?) * 16 + (← Text.hexValue? b)) (some 0)

/-- Reads four hexadecimal digits. -/
def fourDigits : Reader Nat where
  run
    | a :: b :: c :: d :: rest =>
      match hexNumber? [a, b, c, d] with
      | some value => .ok (value, rest)
      | none => .error (.behind .badEscape rest)
    | _ => .error (.behind .endInString [])
  shrinks := by
    intro bytes value rest h
    split at h
    · split at h
      · simp only [Except.ok.injEq, Prod.mk.injEq] at h
        simp only [List.length_cons, ← h.2]
        omega
      · simp at h
    · simp at h

/-- Is the code a first surrogate? -/
def isLeading (code : Nat) : Bool := 0xD800 ≤ code && code ≤ 0xDBFF

/-- Is the code a second surrogate? -/
def isTrailing (code : Nat) : Bool := 0xDC00 ≤ code && code ≤ 0xDFFF

/-- Reads the one byte that has to stand between two surrogates. -/
def linkByte (wanted : UInt8) : Reader Unit where
  run
    | [] => .error (.behind .endInString [])
    | b :: rest => if b = wanted then .ok ((), rest) else .error (.behind .noSecondSurrogate rest)
  shrinks := by
    intro bytes value rest h
    split at h
    · simp at h
    · split at h
      · simp only [Except.ok.injEq, Prod.mk.injEq] at h
        simp [← h.2]
      · simp at h

/-- Reads the second of two surrogates and gives the bytes of their character. -/
def secondSurrogate (leading : Nat) : Reader Bytes where
  run bytes := match (((linkByte backslash).bind fun _ => linkByte 0x75).bind fun _ => fourDigits).run bytes with
    | .ok (code, rest) =>
      if isTrailing code then
        .ok (Utf8.encodeChar (Char.ofNat ((leading - 0xD800) * 0x400 + (code - 0xDC00) + 0x10000)), rest)
      else .error (.behind .loneSurrogate rest)
    | .error fault => .error fault
  shrinks := by
    intro bytes value rest h
    split at h
    · rename_i found
      split at h
      · simp only [Except.ok.injEq, Prod.mk.injEq] at h
        exact h.2 ▸ Reader.shrinks _ found
      · simp at h
    · simp at h

/-- Reads an escape by code, behind its `u`. -/
def codeEscape : Reader Bytes where
  run bytes := match fourDigits.run bytes with
    | .ok (code, rest) =>
      if isTrailing code then .error (.behind .loneSurrogate rest)
      else if isLeading code then (secondSurrogate code).run rest
      else .ok (Utf8.encodeChar (Char.ofNat code), rest)
    | .error fault => .error fault
  shrinks := by
    intro bytes value rest h
    split at h
    · rename_i found
      have := Reader.shrinks _ found
      split at h
      · simp at h
      · split at h
        · exact Nat.lt_trans (Reader.shrinks _ h) this
        · simp only [Except.ok.injEq, Prod.mk.injEq] at h
          exact h.2 ▸ this
    · simp at h

/-- Reads an escape, behind its backslash. -/
def escape : Reader Bytes where
  run
    | [] => .error (.behind .endInString [])
    | b :: rest =>
      if b = 0x75 then codeEscape.run rest
      else match unescape? b with
        | some plain => .ok ([plain], rest)
        | none => .error (.behind .badEscape rest)
  shrinks := by
    intro bytes value rest h
    split at h
    · simp at h
    · split at h
      · exact Nat.lt_succ_of_lt (Reader.shrinks _ h)
      · split at h
        · simp only [Except.ok.injEq, Prod.mk.injEq] at h
          simp [← h.2]
        · simp at h

/-- Reads the inside of a literal and its closing quote. -/
def readInside (bytes : Bytes) : Except Fault (Bytes × Bytes) :=
  match bytes with
  | [] => .error (.behind .endInString [])
  | b :: rest =>
    if b = quote then .ok ([], rest)
    else if b = backslash then
      match found : escape.run rest with
      | .ok (plain, behind) =>
        have := escape.shrinks found
        match readInside behind with
        | .ok (inside, final) => .ok (plain ++ inside, final)
        | .error fault => .error fault
      | .error fault => .error fault
    else if b < 0x20 then .error (.behind .controlCharacter rest)
    else match readInside rest with
      | .ok (inside, final) => .ok (b :: inside, final)
      | .error fault => .error fault
termination_by bytes.length
decreasing_by all_goals simp only [List.length_cons]; omega

theorem length_readInside_lt {bytes inside rest : Bytes} (h : readInside bytes = .ok (inside, rest)) :
    rest.length < bytes.length := by
  fun_induction readInside bytes generalizing inside rest <;> simp_all <;> grind

/-- Reads a literal behind its opening quote. If the bytes it stands for are not UTF-8, the fault is as far in front
of the literal's end as the first sequence that is not well formed is in front of the last of these bytes. Without
escapes this is the place of that sequence. -/
def reader : Reader String where
  run bytes := match readInside bytes with
    | .ok (inside, rest) => match Utf8.decode? inside with
      | some text => .ok (text, rest)
      | none => .error ⟨.badEncoding, rest.length + (inside.length - Utf8.validLength inside)⟩
    | .error fault => .error fault
  shrinks := by
    intro bytes value rest h
    split at h
    · rename_i found
      split at h
      · simp only [Except.ok.injEq, Prod.mk.injEq] at h
        exact h.2 ▸ length_readInside_lt found
      · simp at h
    · simp at h

/-- One digit below sixteen. -/
def hexDigit (n : Nat) : UInt8 := (if n < 10 then 0x30 + n else 0x57 + n).toUInt8

/-- One character as it is written in a literal. -/
def writeChar (c : Char) : Bytes :=
  match c with
  | '"' => [backslash, quote]
  | '\\' => [backslash, backslash]
  | '\x08' => [backslash, 0x62]
  | '\x0C' => [backslash, 0x66]
  | '\n' => [backslash, 0x6E]
  | '\r' => [backslash, 0x72]
  | '\t' => [backslash, 0x74]
  | c =>
    if c.toNat < 0x20 then
      [backslash, 0x75, 0x30, 0x30, hexDigit (c.toNat / 16), hexDigit (c.toNat % 16)]
    else Utf8.encodeChar c

/-- A text as a literal. -/
def write (text : String) : Bytes := quote :: text.toList.flatMap writeChar ++ [quote]

end BundleServer.Json.Literal
