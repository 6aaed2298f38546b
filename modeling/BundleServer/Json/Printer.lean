import BundleServer.Decimal.Shortest
import BundleServer.Json.Literal
import BundleServer.Json.Value

/-!
# From JSON values to text

Values are written without blanks, members in the order in which they stand.
-/

namespace BundleServer.Json

/-- A number as text. -/
def Number.write : Number → Bytes
  | .integer value =>
    let digits := Nat.toDigits 10 value.natAbs
    Utf8.encodeList (if value < 0 then '-' :: digits else digits)
  | .float value => Utf8.encodeList (Decimal.write value)

/-- The pieces with a comma between each two. -/
def commas : List Bytes → Bytes
  | [] => []
  | [piece] => piece
  | piece :: rest => piece ++ 0x2C :: commas rest

mutual

/-- A value as text. -/
def Value.write : Value → Bytes
  | .null => Utf8.encode "null"
  | .bool true => Utf8.encode "true"
  | .bool false => Utf8.encode "false"
  | .number number => number.write
  | .string text => Literal.write text
  | .array items => 0x5B :: commas (writeItems items) ++ [0x5D]
  | .object members => 0x7B :: commas (writeMembers members) ++ [0x7D]

/-- The items of an array, each as text. -/
def writeItems : List Value → List Bytes
  | [] => []
  | item :: rest => item.write :: writeItems rest

/-- The members of an object, each as text. -/
def writeMembers : List (String × Value) → List Bytes
  | [] => []
  | (name, value) :: rest => (Literal.write name ++ 0x3A :: value.write) :: writeMembers rest

end

end BundleServer.Json
