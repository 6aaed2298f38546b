import BundleServer.Pattern.Interpretation
import BundleServer.Pattern.Marking
import BundleServer.Pattern.Matching
import BundleServer.Pattern.Parser
import BundleServer.Pattern.Size

/-!
# Patterns

A pattern is read, gets its meaning, and is refused if that is too large or asks for words of all scripts. What is left
can be looked for in texts.
-/

namespace BundleServer.Pattern

/-- Why a pattern is refused. -/
inductive Refusal where
  | fault (fault : Fault)
  | tooLarge
  | unicodeWords
  deriving DecidableEq, Repr

/-- The refusal as people see it. -/
def Refusal.message (pattern : String) : Refusal → String
  | .fault found => found.message pattern
  | .tooLarge => s!"Compiled regex exceeds size limit of {Meaning.sizeLimit} bytes."
  | .unicodeWords => "error building NFA"

/-- Reads a pattern that can be looked for. -/
def parse (pattern : String) : Except Refusal Meaning := do
  let expression ← (Expression.parse pattern.toList).mapError .fault
  let (meaning, _) ← (expression.interpret {}).mapError .fault
  if meaning.isTooLarge .forward then throw .tooLarge
  if meaning.asksForUnicodeWords then throw .unicodeWords
  if meaning.isTooLarge .backward then throw .tooLarge
  return meaning

end BundleServer.Pattern
