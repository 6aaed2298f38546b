import BundleServer.Text.GraphemeExtend
import BundleServer.Text.Unprintable

/-!
# Quoted text

Messages show untrusted text between double quotes. A quote, a backslash and four control characters get a
letter behind a backslash; other characters that would not show on their own are written by their code
point, as `\u{200b}`; all else stands for itself. `encode` writes the inside of the quotes and `decode`
reads it back.
-/

namespace BundleServer.Text.Quoted

/-- The letter that stands for a character behind a backslash. -/
def letter? : Char → Option Char
  | '"' => some '"'
  | '\\' => some '\\'
  | '\x00' => some '0'
  | '\t' => some 't'
  | '\r' => some 'r'
  | '\n' => some 'n'
  | _ => none

/-- The character that a letter behind a backslash stands for. -/
def unletter? : Char → Option Char
  | '"' => some '"'
  | '\\' => some '\\'
  | '0' => some '\x00'
  | 't' => some '\t'
  | 'r' => some '\r'
  | 'n' => some '\n'
  | _ => none

/-- Is the character written by its code point? -/
def byCodePoint (c : Char) : Bool := extendsGrapheme c || isUnprintable c

/-- One character between the quotes. -/
def encodeChar (c : Char) : List Char :=
  match letter? c with
  | some letter => ['\\', letter]
  | none =>
    if byCodePoint c then ['\\', 'u', '\x7b'] ++ Nat.toDigits 16 c.toNat ++ ['\x7d'] else [c]

/-- The text between the quotes. -/
def encode (chars : List Char) : List Char := chars.flatMap encodeChar

/-- The value of a lower-case hexadecimal digit. -/
def hexValue? (c : Char) : Option Nat :=
  if '0' ≤ c ∧ c ≤ '9' then some (c.toNat - 0x30)
  else if 'a' ≤ c ∧ c ≤ 'f' then some (c.toNat - 0x57)
  else none

/-- Where reading stands: between characters, behind a backslash, behind `\u`, or among the digits of a
code point with the value so far. -/
inductive Reading where
  | plain
  | escaped
  | unicode
  | digits (value : Nat)
  deriving DecidableEq, Repr

/-- Reads quoted text on from a state. -/
def decodeFrom : Reading → List Char → Option (List Char)
  | .plain, [] => some []
  | _, [] => none
  | .plain, c :: rest =>
    if c = '\\' then decodeFrom .escaped rest
    else if c = '"' then none
    else (decodeFrom .plain rest).map (c :: ·)
  | .escaped, c :: rest =>
    if c = 'u' then decodeFrom .unicode rest
    else match unletter? c with
      | some plain => (decodeFrom .plain rest).map (plain :: ·)
      | none => none
  | .unicode, c :: rest => if c = '\x7b' then decodeFrom (.digits 0) rest else none
  | .digits value, c :: rest =>
    if c = '\x7d' then
      if value.isValidChar then (decodeFrom .plain rest).map (Char.ofNat value :: ·) else none
    else match hexValue? c with
      | some digit => decodeFrom (.digits (value * 16 + digit)) rest
      | none => none

/-- The text that stands between the quotes, if it is well formed. -/
def decode (chars : List Char) : Option (List Char) := decodeFrom .plain chars

/-- The text in quotes. -/
def quote (text : String) : String := String.ofList ('"' :: encode text.toList ++ ['"'])

end BundleServer.Text.Quoted
