import BundleServer.Bytes

/-!
# Faults of JSON text

While text is read, a fault is placed by how many bytes stand unread behind it. Once reading has ended the whole
text gives it a line and a column. Lines count from one; the column counts the bytes of the line up to the place.
-/

namespace BundleServer.Json

/-- Why a text is not a JSON value. -/
inductive Reason where
  | endInList
  | endInObject
  | endInString
  | endInValue
  | noColon
  | noListSeparator
  | noObjectSeparator
  | noSuchWord
  | noValue
  | badEscape
  | badNumber
  | numberTooLarge
  | badEncoding
  | controlCharacter
  | nameNotString
  | loneSurrogate
  | trailingComma
  | trailingText
  | noSecondSurrogate
  | tooDeep
  deriving DecidableEq, Repr

/-- The wording of a reason. -/
def Reason.text : Reason → String
  | .endInList => "EOF while parsing a list"
  | .endInObject => "EOF while parsing an object"
  | .endInString => "EOF while parsing a string"
  | .endInValue => "EOF while parsing a value"
  | .noColon => "expected `:`"
  | .noListSeparator => "expected `,` or `]`"
  | .noObjectSeparator => "expected `,` or `\x7d`"
  | .noSuchWord => "expected ident"
  | .noValue => "expected value"
  | .badEscape => "invalid escape"
  | .badNumber => "invalid number"
  | .numberTooLarge => "number out of range"
  | .badEncoding => "invalid unicode code point"
  | .controlCharacter => "control character (\\u0000-\\u001F) found while parsing a string"
  | .nameNotString => "key must be a string"
  | .loneSurrogate => "lone leading surrogate in hex escape"
  | .trailingComma => "trailing comma"
  | .trailingText => "trailing characters"
  | .noSecondSurrogate => "unexpected end of hex escape"
  | .tooDeep => "recursion limit exceeded"

/-- A reason, and how many bytes stood unread when it was found. -/
structure Fault where
  reason : Reason
  unread : Nat
  deriving DecidableEq, Repr

/-- A fault found behind the bytes that were taken. -/
def Fault.behind (reason : Reason) (rest : Bytes) : Fault := ⟨reason, rest.length⟩

/-- A fault found in the next byte, which is counted as read. At the end of the text there is none to count. -/
def Fault.onNext (reason : Reason) (rest : Bytes) : Fault := ⟨reason, rest.length - 1⟩

/-- A reason with the place in the text. -/
structure SyntaxError where
  reason : Reason
  line : Nat
  column : Nat
  deriving DecidableEq, Repr

/-- The place of a fault in the text that was read. -/
def Fault.locate (text : Bytes) (fault : Fault) : SyntaxError :=
  let lines := Bytes.split 0x0A (text.take (text.length - fault.unread))
  ⟨fault.reason, lines.length, (lines.getLast?.getD []).length⟩

/-- The error as people see it. -/
def SyntaxError.message (error : SyntaxError) : String :=
  s!"{error.reason.text} at line {error.line} column {error.column}"

end BundleServer.Json
