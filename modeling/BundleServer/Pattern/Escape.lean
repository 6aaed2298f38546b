import BundleServer.Pattern.Cursor
import BundleServer.Pattern.Expression
import BundleServer.Text.Hex

/-!
# Escapes

What a backslash and the characters behind it stand for: a character by its code or by a letter, a class of characters,
or an assertion. A sign that means something in patterns stands for itself behind a backslash.
-/

namespace BundleServer.Pattern.Escape

/-- The value of a hexadecimal digit. -/
def hexValue? (c : Char) : Option Nat := if c.toNat < 0x80 then Text.hexValue? c.toNat.toUInt8 else none

/-- Is the character a hexadecimal digit? -/
def isHexDigit (c : Char) : Bool := (hexValue? c).isSome

/-- The number that hexadecimal digits write. -/
def hexNumber (digits : List Char) : Nat := digits.foldl (fun value c => value * 16 + (hexValue? c).getD 0) 0

/-- The character of a code, if there is one. -/
def charOfCode (code : Nat) (span : Span) : Except Fault Char :=
  if code.isValidChar then .ok (Char.ofNat code) else .error (span.fault .invalidCode)

/-- Reads so many hexadecimal digits. -/
def readDigits : Nat → Cursor → Except Fault (List Char × Cursor)
  | 0, cursor => .ok ([], cursor)
  | count + 1, cursor => match cursor.rest with
    | [] => .error (cursor.here.fault .unfinishedEscape)
    | c :: _ =>
      if isHexDigit c then do
        let (more, last) ← readDigits count cursor.bumpOver
        return (c :: more, last)
      else .error (cursor.next.fault .noHexDigit)

/-- Reads a code between braces, from the opening one. -/
def readBracedCode (cursor : Cursor) : Except Fault (Char × Cursor) := do
  let (digits, last) := cursor.bumpOver.collect isHexDigit
  match last.rest with
  | [] => throw ((last.since cursor.offset).fault .unfinishedEscape)
  | '}' :: _ =>
    let behind := last.bumpOver
    if digits.isEmpty then throw ((behind.since cursor.offset).fault .emptyCode)
    return (← charOfCode (hexNumber (digits.map Prod.snd)) (last.since cursor.next.stop), behind)
  | _ => throw (last.next.fault .noHexDigit)

/-- Reads a character by its code, from the letter that says how many digits there are. -/
def readCode (start count : Nat) (cursor : Cursor) : Except Fault (Atom × Cursor) := do
  let first := cursor.bumpOver
  match first.rest with
  | [] => throw (first.here.fault .unfinishedEscape)
  | '{' :: _ =>
    let (char, behind) ← readBracedCode first
    return (.literal { span := behind.since start, char }, behind)
  | _ =>
    let (digits, behind) ← readDigits count first
    let char ← charOfCode (hexNumber digits) (behind.since first.offset)
    return (.literal { span := behind.since start, char, byByte := count = 2 }, behind)

/-- Reads a property, from its letter. -/
def readProperty (start : Nat) (cursor : Cursor) : Except Fault (Atom × Cursor) := do
  let first := cursor.bumpOver
  match first.rest with
  | [] => throw (first.here.fault .unfinishedEscape)
  | '\\' :: _ => throw (first.next.fault .invalidProperty)
  | '{' :: _ =>
    let (written, last) := first.bumpOver.collect (· ≠ '}')
    if last.rest.isEmpty then throw (last.here.fault .unfinishedEscape)
    return (.property (last.bump.since start) (written.map Prod.snd), last.bump)
  | c :: _ => return (.property (first.bumpOver.since start) [c], first.bumpOver)

/-- The edge that a name between braces asks for. -/
def edgeOfName? (name : List Char) : Option WordEdge :=
  if name = "start".toList then some .startOfWord
  else if name = "end".toList then some .endOfWord
  else if name = "start-half".toList then some .noWordBefore
  else if name = "end-half".toList then some .noWordBehind
  else none

/-- May the character stand in the name of a boundary? -/
def isBoundaryChar (c : Char) : Bool := c.isAlpha || c = '-'

/-- Reads what follows the escape of a boundary: a name between braces says more about it. Braces around anything else
are left, since they may count how often something is repeated. -/
def readBoundary (start : Nat) (cursor : Cursor) : Except Fault (Atom × Cursor) :=
  let plain : Atom × Cursor := (.assertion (cursor.since start) (.word .boundary), cursor)
  match cursor.rest with
  | '{' :: _ =>
    let first := cursor.bumpOver
    match first.rest with
    | [] => .error ((first.since start).fault .unfinishedBoundary)
    | c :: _ =>
      if isBoundaryChar c then
        let (name, last) := first.collect isBoundaryChar
        match last.rest with
        | '}' :: _ => match edgeOfName? (name.map Prod.snd) with
          | some edge => .ok (.assertion (last.bump.since start) (.word edge), last.bump)
          | none => .error ((last.since first.offset).fault .unknownBoundary)
        | _ => .error ((last.since cursor.offset).fault .unclosedBoundary)
      else .ok plain
  | _ => .ok plain

/-- The classes of characters that a letter stands for, in lower case for the class and in upper case for all others. -/
def shortClass? (c : Char) : Option NamedClass :=
  match c.toLower with
  | 'd' => some .digit
  | 's' => some .space
  | 'w' => some .word
  | _ => none

/-- The character that a letter stands for. -/
def letter? : Char → Option Char
  | 'a' => some '\x07'
  | 'f' => some '\x0C'
  | 't' => some '\t'
  | 'n' => some '\n'
  | 'r' => some '\r'
  | 'v' => some '\x0B'
  | _ => none

/-- The assertion that a letter stands for. -/
def assertion? : Char → Option Assertion
  | 'A' => some .startOfText
  | 'z' => some .endOfText
  | 'B' => some (.word .noBoundary)
  | '<' => some (.word .startOfWord)
  | '>' => some (.word .endOfWord)
  | _ => none

/-- Does the character stand for itself behind a backslash? -/
def isSign (c : Char) : Bool := c.toNat < 0x80 && !c.isAlphanum && c ≠ '<' && c ≠ '>'

/-- Reads an escape, from its backslash. -/
def read (cursor : Cursor) : Except Fault (Atom × Cursor) :=
  let start := cursor.offset
  let first := cursor.bump
  let behind := first.bump
  let span := behind.since start
  match first.rest with
  | [] => .error ((first.since start).fault .unfinishedEscape)
  | 'x' :: _ => readCode start 2 first
  | 'u' :: _ => readCode start 4 first
  | 'U' :: _ => readCode start 8 first
  | 'p' :: _ | 'P' :: _ => readProperty start first
  | 'b' :: _ => readBoundary start behind
  | c :: _ =>
    if c.isDigit then .error (span.fault .backreference)
    else if isSign c then .ok (.literal { span, char := c }, behind)
    else match shortClass? c, letter? c, assertion? c with
      | some kind, _, _ => .ok (.short span kind c.isUpper, behind)
      | _, some char, _ => .ok (.literal { span, char }, behind)
      | _, _, some assertion => .ok (.assertion span assertion, behind)
      | _, _, _ => .error (span.fault .unknownEscape)

end BundleServer.Pattern.Escape
