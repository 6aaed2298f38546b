/-!
# Faults of patterns

Why a pattern is refused, and where. A place in a pattern is the number of characters in front of it.
-/

namespace BundleServer.Pattern

/-- A stretch of a pattern. -/
structure Span where
  start : Nat
  stop : Nat
  deriving DecidableEq, Repr

/-- The stretch from the start of one to the end of another. -/
def Span.upTo (first last : Span) : Span := ⟨first.start, last.stop⟩

/-- What is wrong with a pattern. The first kinds break the grammar; the last ones have no meaning. -/
inductive Reason where
  | assertionInSet
  | reversedRange
  | noRangeEnd
  | unclosedSet
  | invalidNumber
  | emptyCode
  | invalidCode
  | noHexDigit
  | unfinishedEscape
  | unknownEscape
  | danglingNegation
  | repeatedFlag
  | repeatedNegation
  | unfinishedFlags
  | unknownFlag
  | repeatedName
  | emptyName
  | invalidName
  | unfinishedName
  | unclosedGroup
  | unopenedGroup
  | tooDeep
  | reversedCount
  | emptyCount
  | unclosedCount
  | nothingToRepeat
  | unclosedBoundary
  | unknownBoundary
  | unfinishedBoundary
  | invalidProperty
  | backreference
  | lookAround
  | beyondAscii
  | invalidUtf8
  | unknownProperty
  | unknownPropertyValue
  | noNamedClass
  | noCaseFolding
  deriving DecidableEq, Repr

/-- How many groups, repetitions and sets may stand inside each other. -/
def depthLimit : Nat := 250

/-- The wording of a reason. -/
def Reason.text : Reason → String
  | .assertionInSet => "invalid escape sequence found in character class"
  | .reversedRange => "invalid character class range, the start must be <= the end"
  | .noRangeEnd => "invalid range boundary, must be a literal"
  | .unclosedSet => "unclosed character class"
  | .invalidNumber => "decimal literal invalid"
  | .emptyCode => "hexadecimal literal empty"
  | .invalidCode => "hexadecimal literal is not a Unicode scalar value"
  | .noHexDigit => "invalid hexadecimal digit"
  | .unfinishedEscape => "incomplete escape sequence, reached end of pattern prematurely"
  | .unknownEscape => "unrecognized escape sequence"
  | .danglingNegation => "dangling flag negation operator"
  | .repeatedFlag => "duplicate flag"
  | .repeatedNegation => "flag negation operator repeated"
  | .unfinishedFlags => "expected flag but got end of regex"
  | .unknownFlag => "unrecognized flag"
  | .repeatedName => "duplicate capture group name"
  | .emptyName => "empty capture group name"
  | .invalidName => "invalid capture group character"
  | .unfinishedName => "unclosed capture group name"
  | .unclosedGroup => "unclosed group"
  | .unopenedGroup => "unopened group"
  | .tooDeep => s!"exceed the maximum number of nested parentheses/brackets ({depthLimit})"
  | .reversedCount => "invalid repetition count range, the start must be <= the end"
  | .emptyCount => "repetition quantifier expects a valid decimal"
  | .unclosedCount => "unclosed counted repetition"
  | .nothingToRepeat => "repetition operator missing expression"
  | .unclosedBoundary =>
    "special word boundary assertion is either unclosed or contains an invalid character"
  | .unknownBoundary =>
    "unrecognized special word boundary assertion, valid choices are: start, end, start-half or end-half"
  | .unfinishedBoundary =>
    "found either the beginning of a special word boundary or a bounded repetition on a \\b with an opening brace, " ++
      "but no closing brace"
  | .invalidProperty => "invalid Unicode character class"
  | .backreference => "backreferences are not supported"
  | .lookAround => "look-around, including look-ahead and look-behind, is not supported"
  | .beyondAscii => "Unicode not allowed here"
  | .invalidUtf8 => "pattern can match invalid UTF-8"
  | .unknownProperty => "Unicode property not found"
  | .unknownPropertyValue => "Unicode property value not found"
  | .noNamedClass => "Unicode-aware Perl class not found (make sure the unicode-perl feature is enabled)"
  | .noCaseFolding =>
    "Unicode-aware case insensitivity matching is not available (make sure the unicode-case feature is enabled)"

/-- A reason with its place, and the place of what it conflicts with. -/
structure Fault where
  reason : Reason
  span : Span
  earlier? : Option Span := none
  deriving DecidableEq, Repr

/-- A fault at a stretch. -/
def Span.fault (span : Span) (reason : Reason) : Fault := { reason, span }

/-- The places of a fault in their order. What a stretch conflicts with stands in front of it. -/
def Fault.spans (fault : Fault) : List Span := fault.earlier?.toList ++ [fault.span]

end BundleServer.Pattern
