import BundleServer.Log.Level
import BundleServer.Pattern.Basic

/-!
# Which log records are shown

A specification is a list of directives such as `info` or `app=debug`, separated by commas. Each sets the most detailed
level for the targets that start with a name, or for all others. Of the directives that fit a target the one with the
longest name counts. Behind a slash the specification may have a pattern that must occur in shown messages.
-/

namespace BundleServer.Log

/-- The most detailed level for targets that start with a name, or for all targets. No level means none is shown. -/
structure Directive where
  name? : Option String
  level? : Option Level
  deriving DecidableEq, Repr

/-- Which records are shown. -/
structure Filter where
  directives : List Directive := []
  pattern? : Option Pattern.Meaning := none
  deriving Repr

namespace Filter

/-- The text with its ASCII letters in upper case. -/
def upper (text : String) : String := String.ofList (text.toList.map Char.toUpper)

/-- The level of a name in any case, where `off` is the level that shows nothing. -/
def level? (name : String) : Option (Option Level) :=
  if upper name = "OFF" then some none
  else (Level.all.find? fun level => level.name = upper name).map some

/-- Reads one directive, or gives the part that is not understood. -/
def readDirective (text : String) : Except String Directive :=
  match Text.pieces '=' text with
  | [word] => match level? word with
    | some level? => .ok ⟨none, level?⟩
    | none => .ok ⟨some word, some .trace⟩
  | [name, value] =>
    let value := Text.trim value
    if value = "" then .ok ⟨some name, some .trace⟩
    else match level? value with
      | some level? => .ok ⟨some name, level?⟩
      | none => .error value
  | _ => .error text

/-- Adds a directive. It takes the place of an earlier one for the same name. -/
def insert (filter : Filter) (directive : Directive) : Filter :=
  if filter.directives.any (·.name? = directive.name?) then
    { filter with
      directives := filter.directives.map fun other => if other.name? = directive.name? then directive else other }
  else { filter with directives := filter.directives ++ [directive] }

/-- Something in a specification that is not understood, and is therefore ignored. -/
inductive Complaint where
  | badPart (part : String)
  | tooManySlashes (text : String)
  | badPattern (pattern : String) (refusal : Pattern.Refusal)
  deriving DecidableEq, Repr

/-- The complaint as people see it. -/
def Complaint.message : Complaint → String
  | .badPart part => s!"invalid logging spec '{part}'"
  | .tooManySlashes text => s!"invalid logging spec '{text}' (too many '/'s)"
  | .badPattern pattern refusal => s!"invalid regex filter - {refusal.message pattern}"

/-- Reads the directives of a specification, with complaints about the parts that are not understood. -/
def readDirectives (text : String) : Filter × List Complaint :=
  ((Text.pieces ',' text).map Text.trim).foldl (fun (filter, complaints) part =>
    if part = "" then (filter, complaints)
    else match readDirective part with
      | .ok directive => (filter.insert directive, complaints)
      | .error part => (filter, complaints ++ [.badPart part])) ({}, [])

/-- Reads a specification. Blanks belong to the pattern. -/
def parse (text : String) : Filter × List Complaint :=
  match Text.pieces '/' text with
  | [directives] => readDirectives directives
  | [directives, wanted] =>
    let (filter, complaints) := readDirectives directives
    match Pattern.parse wanted with
    | .ok pattern => ({ filter with pattern? := some pattern }, complaints)
    | .error refusal => (filter, complaints ++ [.badPattern wanted refusal])
  | _ => ({}, [.tooManySlashes text])

/-- The directives that count: without any, errors are shown. -/
def effective (filter : Filter) : List Directive :=
  if filter.directives.isEmpty then [⟨none, some .error⟩] else filter.directives

/-- How long the name of a directive is. -/
def specificity (directive : Directive) : Nat := ((directive.name?.getD "").toList).length

/-- Does a directive fit a target? -/
def fits (target : String) (directive : Directive) : Bool :=
  match directive.name? with
  | none => true
  | some name => name.toList.isPrefixOf target.toList

/-- The directive that counts for a target: of those that fit, the last of the longest names. -/
def directiveFor? (filter : Filter) (target : String) : Option Directive :=
  (filter.effective.filter (fits target)).foldl (fun best? directive =>
    match best? with
    | none => some directive
    | some best => if specificity best ≤ specificity directive then some directive else some best) none

/-- Is a record of this level, target and message shown? -/
def shows (filter : Filter) (level : Level) (target message : String) : Bool :=
  let detailed := match filter.directiveFor? target with
    | some ⟨_, some limit⟩ => level.rank ≤ limit.rank
    | _ => false
  detailed && filter.pattern?.all fun pattern => pattern.occursIn message.toList

end Filter

end BundleServer.Log
