import BundleServer.Bytes
import BundleServer.Text.Hex

/-!
# Percent escapes

A byte may be written as `%` and two hexadecimal digits. Reading is strict for the paths of static files, where a
malformed escape refuses the whole, and lenient for the parts of a route, where it stands for itself. The strict reader
takes the two characters as a number, and a number may have a plus sign in front of its digit.
-/

namespace BundleServer.Percent

/-- The byte `%`. -/
def sign : UInt8 := 0x25

/-- The byte that two hexadecimal digits stand for. -/
def pair? (high low : UInt8) : Option UInt8 := do
  return ((← Text.hexValue? high) * 16 + (← Text.hexValue? low)).toUInt8

/-- The byte that two characters stand for as a number: two digits, or a plus and one digit. -/
def number? (high low : UInt8) : Option UInt8 :=
  if high = 0x2B then (Text.hexValue? low).map (·.toUInt8) else pair? high low

/-- The bytes with every escape decoded, if all are well formed. -/
def decode? : Bytes → Option Bytes
  | [] => some []
  | b :: rest =>
    if b = sign then
      match rest with
      | high :: low :: behind => do
        let byte ← number? high low
        return byte :: (← decode? behind)
      | _ => none
    else (decode? rest).map (b :: ·)

/-- The bytes with every well-formed escape decoded. -/
def decodeLenient : Bytes → Bytes
  | [] => []
  | b :: rest =>
    if b = sign then
      match rest with
      | high :: low :: behind => match pair? high low with
        | some byte => byte :: decodeLenient behind
        | none => b :: decodeLenient (high :: low :: behind)
      | rest => b :: rest
    else b :: decodeLenient rest

end BundleServer.Percent
