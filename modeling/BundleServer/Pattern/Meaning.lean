import BundleServer.Pattern.CharSet

/-!
# What expressions mean

The meaning of an expression has no flags left: every character is a set of characters, and every assertion says in full
what it asks for. Repetitions are kept in a simplest form: what matches only the empty text is not repeated.
-/

namespace BundleServer.Pattern

/-- What is asked of a place in a text. Lines end at line feeds, and where `crlf` says so also at carriage returns.
Words are made of ASCII letters, digits and `_`, unless `unicode` asks for those of all scripts. -/
inductive Look where
  | startOfText
  | endOfText
  | startOfLine (crlf : Bool)
  | endOfLine (crlf : Bool)
  | word (edge : WordEdge) (unicode : Bool)
  deriving DecidableEq, Repr

/-- The meaning of an expression. -/
inductive Meaning where
  | empty
  | char (set : CharSet)
  | look (look : Look)
  | repeated (least : Nat) (most? : Option Nat) (part : Meaning)
  | captured (inside : Meaning)
  | alternation (branches : List Meaning)
  | sequence (parts : List Meaning)
  deriving Repr

namespace Meaning

mutual

/-- Does it match the empty text only? -/
def isBlank : Meaning → Bool
  | .empty | .look _ => true
  | .char _ => false
  | .repeated _ _ part => part.isBlank
  | .captured inside => inside.isBlank
  | .alternation branches => areBlank branches
  | .sequence parts => areBlank parts

/-- Do all match the empty text only? -/
def areBlank : List Meaning → Bool
  | [] => true
  | part :: rest => part.isBlank && areBlank rest

end

mutual

/-- May it match the empty text? -/
def canBeEmpty : Meaning → Bool
  | .empty | .look _ => true
  | .char _ => false
  | .repeated least _ part => least = 0 || part.canBeEmpty
  | .captured inside => inside.canBeEmpty
  | .alternation branches => anyCanBeEmpty branches
  | .sequence parts => allCanBeEmpty parts

/-- May one of them match the empty text? -/
def anyCanBeEmpty : List Meaning → Bool
  | [] => false
  | part :: rest => part.canBeEmpty || anyCanBeEmpty rest

/-- May each of them match the empty text? -/
def allCanBeEmpty : List Meaning → Bool
  | [] => true
  | part :: rest => part.canBeEmpty && allCanBeEmpty rest

end

mutual

/-- Does it ask for words of all scripts? -/
def asksForUnicodeWords : Meaning → Bool
  | .look (.word _ unicode) => unicode
  | .empty | .char _ | .look _ => false
  | .repeated _ _ part => part.asksForUnicodeWords
  | .captured inside => inside.asksForUnicodeWords
  | .alternation branches => anyAsksForUnicodeWords branches
  | .sequence parts => anyAsksForUnicodeWords parts

/-- Does one of them ask for words of all scripts? -/
def anyAsksForUnicodeWords : List Meaning → Bool
  | [] => false
  | part :: rest => part.asksForUnicodeWords || anyAsksForUnicodeWords rest

end

/-- A repetition. What matches the empty text only need not be repeated, what is repeated never is empty, and once is no
repetition. -/
def repeatPart (least : Nat) (most? : Option Nat) (part : Meaning) : Meaning :=
  let least := if part.isBlank then min least 1 else least
  let most? := if part.isBlank then some (min (most?.getD 1) 1) else most?
  if most? = some 0 then .empty
  else if least = 1 ∧ most? = some 1 then part
  else .repeated least most? part

/-- Is it the meaning of nothing written? -/
def isEmpty : Meaning → Bool
  | .empty => true
  | _ => false

/-- Parts in a row. -/
def inSequence (parts : List Meaning) : Meaning :=
  match parts.filter (!·.isEmpty) with
  | [] => .empty
  | [part] => part
  | parts => .sequence parts

/-- The characters of a branch that is a set. -/
def charSet? : Meaning → Option CharSet
  | .char set => some set
  | _ => none

/-- One of some branches. If all are sets of characters, this is their union. -/
def oneOf (branches : List Meaning) : Meaning :=
  match branches.mapM charSet? with
  | some sets => .char (sets.foldl CharSet.union [])
  | none => .alternation branches

end Meaning

end BundleServer.Pattern
