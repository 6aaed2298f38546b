import BundleServer.Pattern.Fault

/-!
# Expressions

A pattern as it was written, with the place of every part. What a part means depends on the flags in force, and is
settled later.
-/

namespace BundleServer.Pattern

/-- What flags change. -/
inductive Flag where
  | caseless
  | multiLine
  | dotAll
  | swapGreed
  | unicode
  | crlf
  | freeSpacing
  deriving DecidableEq, Repr

/-- The flag of a letter. -/
def Flag.ofLetter? : Char → Option Flag
  | 'i' => some .caseless
  | 'm' => some .multiLine
  | 's' => some .dotAll
  | 'U' => some .swapGreed
  | 'u' => some .unicode
  | 'R' => some .crlf
  | 'x' => some .freeSpacing
  | _ => none

/-- Flags that are turned on or off. Each stands at most once. -/
abbrev FlagSettings := List (Flag × Bool)

/-- A flag under settings, when `inherited` holds without them. -/
def FlagSettings.value (settings : FlagSettings) (flag : Flag) (inherited : Bool) : Bool :=
  (settings.lookup flag).getD inherited

/-- How a place may lie to the words around it. -/
inductive WordEdge where
  | boundary
  | noBoundary
  | startOfWord
  | endOfWord
  | noWordBefore
  | noWordBehind
  deriving DecidableEq, Repr

/-- What an assertion asks of its place. -/
inductive Assertion where
  | startOfLine
  | endOfLine
  | startOfText
  | endOfText
  | word (edge : WordEdge)
  deriving DecidableEq, Repr

/-- The classes with a name between `[:` and `:]`. -/
inductive NamedClass where
  | alnum
  | alpha
  | ascii
  | blank
  | cntrl
  | digit
  | graph
  | lower
  | print
  | punct
  | space
  | upper
  | word
  | xdigit
  deriving DecidableEq, Repr

namespace NamedClass

/-- All classes with a name. -/
def all : List NamedClass :=
  [.alnum, .alpha, .ascii, .blank, .cntrl, .digit, .graph, .lower, .print, .punct, .space, .upper, .word, .xdigit]

/-- The name of a class. -/
def name : NamedClass → String
  | .alnum => "alnum"
  | .alpha => "alpha"
  | .ascii => "ascii"
  | .blank => "blank"
  | .cntrl => "cntrl"
  | .digit => "digit"
  | .graph => "graph"
  | .lower => "lower"
  | .print => "print"
  | .punct => "punct"
  | .space => "space"
  | .upper => "upper"
  | .word => "word"
  | .xdigit => "xdigit"

end NamedClass

/-- A character that stands for itself. It counts as a byte if it was written by two hexadecimal digits. -/
structure Literal where
  span : Span
  char : Char
  byByte : Bool := false
  deriving DecidableEq, Repr

/-- What stands in a pattern without parts of its own. -/
inductive Atom where
  | literal (literal : Literal)
  /-- Any character, or any but the end of a line. -/
  | dot (span : Span)
  | assertion (span : Span) (assertion : Assertion)
  /-- Digits, blanks or letters of words, written by a letter. -/
  | short (span : Span) (kind : NamedClass) (negated : Bool)
  /-- The characters with a property, or without it. A property goes by its name, or by a name and a value. -/
  | property (span : Span) (written : List Char)
  deriving DecidableEq, Repr

/-- Where an atom stands. -/
def Atom.span : Atom → Span
  | .literal char => char.span
  | .dot span | .assertion span _ | .short span .. | .property span _ => span

/-- How two sets are combined. -/
inductive SetOperation where
  | intersection
  | difference
  | symmetricDifference
  deriving DecidableEq, Repr

/-- A set of characters between brackets, and what may stand in one. -/
inductive CharClass where
  | empty (span : Span)
  | literal (literal : Literal)
  | range (low high : Literal)
  | named (span : Span) (name : NamedClass) (negated : Bool)
  | short (span : Span) (kind : NamedClass) (negated : Bool)
  | property (span : Span) (written : List Char)
  | bracketed (span : Span) (negated : Bool) (inside : CharClass)
  | union (span : Span) (members : List CharClass)
  | combined (span : Span) (operation : SetOperation) (left right : CharClass)
  deriving Repr

/-- Where a set stands. -/
def CharClass.span : CharClass → Span
  | .literal char => char.span
  | .range low high => low.span.upTo high.span
  | .empty span | .named span .. | .short span .. | .property span _ => span
  | .bracketed span .. | .union span _ | .combined span .. => span

/-- A pattern or a part of one. -/
inductive Expression where
  | empty (span : Span)
  /-- Flags for all that follows in the group. -/
  | settings (span : Span) (settings : FlagSettings)
  | atom (atom : Atom)
  | charClass (set : CharClass)
  /-- A part that is repeated at least so often, and at most so often if there is a limit. -/
  | repeated (span : Span) (least : Nat) (most? : Option Nat) (part : Expression)
  /-- A group, with flags for its inside. A capturing group remembers what it matched. -/
  | group (span : Span) (capturing : Bool) (settings : FlagSettings) (inside : Expression)
  | alternation (span : Span) (branches : List Expression)
  | sequence (span : Span) (parts : List Expression)
  deriving Repr

/-- Where an expression stands. -/
def Expression.span : Expression → Span
  | .atom single => single.span
  | .empty span | .settings span _ | .repeated span .. | .group span .. => span
  | .alternation span _ | .sequence span _ => span
  | .charClass set => set.span

end BundleServer.Pattern
