import BundleServer.Pattern.Meaning

/-!
# The meaning of expressions

Flags hold from where they stand to the end of their group, through its branches. Unicode is on at first: then a set
may hold any characters, but there are no classes of characters by script, and no letters of the other case. With
Unicode off all is ASCII, and whatever could match a part of a character is refused.
-/

namespace BundleServer.Pattern

/-- The flags in force. -/
structure Mode where
  caseless : Bool := false
  multiLine : Bool := false
  dotAll : Bool := false
  crlf : Bool := false
  unicode : Bool := true
  deriving DecidableEq, Repr

namespace Mode

/-- The flags with settings made. -/
def set (mode : Mode) (settings : FlagSettings) : Mode where
  caseless := settings.value .caseless mode.caseless
  multiLine := settings.value .multiLine mode.multiLine
  dotAll := settings.value .dotAll mode.dotAll
  crlf := settings.value .crlf mode.crlf
  unicode := settings.value .unicode mode.unicode

/-- Is the other case of letters beyond ASCII asked for? -/
def folds (mode : Mode) : Bool := mode.caseless && mode.unicode

/-- The set with the letters of the other case, if they count. -/
def withCase (mode : Mode) (set : CharSet) : CharSet := if mode.caseless then set.withOtherCase else set

/-- The set, or the characters outside of it. Without Unicode these would be bytes that may belong to a character. -/
def negate (mode : Mode) (span : Span) (negated : Bool) (set : CharSet) : Except Fault CharSet :=
  if !negated then .ok set
  else if mode.unicode then .ok set.complement
  else .error (span.fault .invalidUtf8)

/-- The characters that a class with a name stands for. -/
def named (mode : Mode) (span : Span) (name : NamedClass) (negated : Bool) : Except Fault CharSet :=
  if mode.folds then .error (span.fault .noCaseFolding)
  else mode.negate span negated (mode.withCase (CharSet.ofNamed name))

/-- The characters that a letter behind a backslash stands for. -/
def short (mode : Mode) (span : Span) (kind : NamedClass) (negated : Bool) : Except Fault CharSet :=
  if mode.unicode then .error (span.fault .noNamedClass)
  else mode.negate span negated (CharSet.ofNamed kind)

/-- A property's name as names are compared: in lower case, without blanks, hyphens and underscores, and without `is` in
front, unless a `c` would be all that is left. -/
def propertyName (written : List Char) : List Char :=
  let startsWithIs := match written with
    | a :: b :: _ => (a = 'i' || a = 'I') && (b = 's' || b = 'S')
    | _ => false
  let name := (if startsWithIs then written.drop 2 else written).filterMap fun c =>
    if c = ' ' || c = '_' || c = '-' || 0x80 ≤ c.toNat then none else some c.toLower
  if startsWithIs && name = ['c'] then ['i', 's', 'c'] else name

/-- The names that stand for values and not for properties of their own. -/
def valueNames : List (List Char) := [['c', 'f'], ['s', 'c'], ['l', 'c']]

/-- Why there is no set for a property: none is known here. -/
def propertyFault (mode : Mode) (span : Span) (written : List Char) : Fault :=
  if !mode.unicode then span.fault .beyondAscii
  else if written.contains ':' || written.contains '=' then span.fault .unknownProperty
  else if valueNames.contains (propertyName written) then span.fault .unknownPropertyValue
  else span.fault .unknownProperty

/-- The character of a literal. Without Unicode a byte beyond ASCII is only a part of a character. -/
def literal (mode : Mode) (written : Literal) : Except Fault Char :=
  if !mode.unicode && written.byByte && 0x80 ≤ written.char.toNat then .error (written.span.fault .invalidUtf8)
  else .ok written.char

/-- The code point of a literal in a set. Without Unicode a set holds only ASCII. -/
def member (mode : Mode) (written : Literal) : Except Fault Nat := do
  let char ← mode.literal written
  if !mode.unicode && 0x80 ≤ char.toNat then throw (written.span.fault .beyondAscii)
  return char.toNat

/-- The end of a line, which a dot leaves out. -/
def lineEnd (mode : Mode) : CharSet := if mode.crlf then [(0x0A, 0x0A), (0x0D, 0x0D)] else [(0x0A, 0x0A)]

/-- What an assertion asks for. -/
def look (mode : Mode) : Assertion → Look
  | .startOfLine => if mode.multiLine then .startOfLine mode.crlf else .startOfText
  | .endOfLine => if mode.multiLine then .endOfLine mode.crlf else .endOfText
  | .startOfText => .startOfText
  | .endOfText => .endOfText
  | .word edge => .word edge mode.unicode

/-- The meaning of an atom. -/
def atom (mode : Mode) : Atom → Except Fault Meaning
  | .literal written => do
    let char ← mode.literal written
    if mode.folds then throw (written.span.fault .noCaseFolding)
    return .char (mode.withCase (.single char))
  | .dot span =>
    if !mode.unicode then .error (span.fault .invalidUtf8)
    else .ok (.char (if mode.dotAll then .everything else mode.lineEnd.complement))
  | .assertion _ assertion => .ok (.look (mode.look assertion))
  | .short span kind negated => do return .char (← mode.short span kind negated)
  | .property span written => .error (mode.propertyFault span written)

end Mode

mutual

/-- Does a set list characters or ranges itself, outside of other sets? -/
def CharClass.listsChars : CharClass → Bool
  | .literal _ | .range .. => true
  | .union _ members => CharClass.anyListsChars members
  | _ => false

/-- Does one of the members list characters? -/
def CharClass.anyListsChars : List CharClass → Bool
  | [] => false
  | member :: rest => member.listsChars || CharClass.anyListsChars rest

end

/-- Takes the letters of the other case into a finished set. For letters beyond ASCII this cannot be done. -/
def CharClass.fold (mode : Mode) (set : CharClass) (span : Span) (chars : CharSet) : Except Fault CharSet :=
  if mode.folds && set.listsChars then .error (span.fault .noCaseFolding) else .ok (mode.withCase chars)

mutual

/-- The characters of a set. -/
def CharClass.interpret (mode : Mode) : CharClass → Except Fault CharSet
  | .empty _ => .ok []
  | .literal written => do
    let code ← mode.member written
    return [(code, code)]
  | .range low high => do return [(← mode.member low, ← mode.member high)]
  | .named span name negated => mode.named span name negated
  | .short span kind negated => mode.short span kind negated
  | .property span written => .error (mode.propertyFault span written)
  | .bracketed span negated inside => do
    mode.negate span negated (← inside.fold mode span (← inside.interpret mode))
  | .union _ members => CharClass.interpretAll mode members
  | .combined _ operation left right => do
    let first ← left.interpret mode
    let second ← right.interpret mode
    let second ← right.fold mode right.span second
    let first ← left.fold mode left.span first
    return CharSet.combine operation first second

/-- The characters of all members. -/
def CharClass.interpretAll (mode : Mode) : List CharClass → Except Fault CharSet
  | [] => .ok []
  | member :: rest => do
    let first ← member.interpret mode
    return first.union (← CharClass.interpretAll mode rest)

end

mutual

/-- The meaning of an expression, and the flags behind it. -/
def Expression.interpret (mode : Mode) : Expression → Except Fault (Meaning × Mode)
  | .empty _ => .ok (.empty, mode)
  | .settings _ made => .ok (.empty, mode.set made)
  | .atom single => do return (← mode.atom single, mode)
  | .charClass set => do return (.char (← set.interpret mode), mode)
  | .repeated _ least most? part => do
    let (part, mode) ← part.interpret mode
    return (.repeatPart least most? part, mode)
  | .group _ capturing made inside => do
    let (inside, _) ← inside.interpret (mode.set made)
    return (if capturing then .captured inside else inside, mode)
  | .alternation _ branches => do
    let (branches, mode) ← Expression.interpretAll mode branches
    return (.oneOf branches, mode)
  | .sequence _ parts => do
    let (parts, mode) ← Expression.interpretAll mode parts
    return (.inSequence parts, mode)

/-- The meanings of expressions, each under the flags behind the one before it. -/
def Expression.interpretAll (mode : Mode) : List Expression → Except Fault (List Meaning × Mode)
  | [] => .ok ([], mode)
  | part :: rest => do
    let (first, mode) ← part.interpret mode
    let (others, mode) ← Expression.interpretAll mode rest
    return (first :: others, mode)

end

end BundleServer.Pattern
