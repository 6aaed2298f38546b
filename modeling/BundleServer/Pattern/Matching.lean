import BundleServer.Pattern.Meaning

/-!
# Matching

Where a match that starts at some places of a text may end. Places are kept as marks: one for the front of every
character, and one for the end of the text. A part leads from the marks in front of it to the marks behind it, so parts
in a row are applied one behind the other.
-/

namespace BundleServer.Pattern

/-- Some places of a text. -/
abbrev Marks := List Bool

namespace Marks

/-- The places of either kind. -/
def union : Marks → Marks → Marks
  | a :: first, b :: second => (a || b) :: union first second
  | _, _ => []

/-- Is there any place? -/
def any (marks : Marks) : Bool := List.any marks id

/-- The places in front of characters of a set, moved behind these. -/
def shift (set : CharSet) : List Char → Marks → Marks
  | c :: rest, mark :: marks => (mark && Text.Ranges.contains set c) :: shift set rest marks
  | _, _ => []

/-- The places behind one character of a set. -/
def behind (set : CharSet) (text : List Char) (marks : Marks) : Marks := false :: shift set text marks

/-- Goes so many times, as long as there is any place. -/
def iterate (go : Marks → Marks) : Nat → Marks → Marks
  | 0, marks => marks
  | count + 1, marks => if marks.any then iterate go count (go marks) else marks

/-- Goes any number of times up to the given one. -/
def closure (go : Marks → Marks) : Nat → Marks → Marks
  | 0, marks => marks
  | count + 1, marks =>
    let more := marks.union (go marks)
    if more = marks then marks else closure go count more

end Marks

/-- Is it a character of a word? -/
def isWordChar (c : Char) : Bool := c.isAlphanum || c = '_'

/-- Does a place between two characters lie so to the words? -/
def WordEdge.holds (edge : WordEdge) (before? after? : Option Char) : Bool :=
  let before := before?.any isWordChar
  let after := after?.any isWordChar
  match edge with
  | .boundary => before != after
  | .noBoundary => before == after
  | .startOfWord => !before && after
  | .endOfWord => before && !after
  | .noWordBefore => !before
  | .noWordBehind => !after

/-- Is a place between two characters as asked for? The end of a line is a line feed, or one of a carriage return, a
line feed and both together. -/
def Look.holds (look : Look) (before? after? : Option Char) : Bool :=
  match look with
  | .startOfText => before?.isNone
  | .endOfText => after?.isNone
  | .startOfLine false => before?.isNone || before? = some '\n'
  | .endOfLine false => after?.isNone || after? = some '\n'
  | .startOfLine true =>
    before?.isNone || before? = some '\n' || (before? = some '\r' && after? ≠ some '\n')
  | .endOfLine true =>
    after?.isNone || after? = some '\r' || (after? = some '\n' && before? ≠ some '\r')
  | .word edge _ => edge.holds before? after?

/-- The places that are as asked for. -/
def Marks.filter (look : Look) : Option Char → List Char → Marks → Marks
  | before?, text, mark :: marks =>
    (mark && look.holds before? text.head?) :: filter look text.head? text.tail marks
  | _, _, [] => []

namespace Meaning

/-- The places behind matches of a repetition, when `go` leads behind its part. With so many places as a text has, going
further never finds a new one. -/
def reachRepeated (text : List Char) (least : Nat) (most? : Option Nat) (go : Marks → Marks) (marks : Marks) : Marks :=
  let places := text.length + 1
  Marks.closure go (match most? with
    | none => places
    | some most => min (most - least) places) (Marks.iterate go least marks)

mutual

/-- The places behind matches that start at the marks. -/
def reach (text : List Char) : Meaning → Marks → Marks
  | .empty, marks => marks
  | .char set, marks => marks.behind set text
  | .look asked, marks => marks.filter asked none text
  | .repeated least most? part, marks => reachRepeated text least most? (part.reach text) marks
  | .captured inside, marks => inside.reach text marks
  | .alternation branches, marks => reachAny text branches marks
  | .sequence parts, marks => reachThrough text parts marks

/-- The places behind matches of one of the branches. -/
def reachAny (text : List Char) : List Meaning → Marks → Marks
  | [], marks => marks.map fun _ => false
  | branch :: rest, marks => (branch.reach text marks).union (reachAny text rest marks)

/-- The places behind matches of all parts in a row. -/
def reachThrough (text : List Char) : List Meaning → Marks → Marks
  | [], marks => marks
  | part :: rest, marks => reachThrough text rest (part.reach text marks)

end

/-- Is there a match anywhere in the text? -/
def occursIn (meaning : Meaning) (text : List Char) : Bool :=
  (meaning.reach text (List.replicate (text.length + 1) true)).any

end Meaning

end BundleServer.Pattern
