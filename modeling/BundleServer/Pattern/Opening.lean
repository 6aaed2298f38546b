import BundleServer.Pattern.Cursor
import BundleServer.Pattern.Expression
import BundleServer.Text.Letters

/-!
# Openings of groups

A group opens with a parenthesis and, behind it, a name, flags, or nothing. Flags with a closing parenthesis right
behind them open no group but hold for the rest of the one they stand in.
-/

namespace BundleServer.Pattern

/-- What an opening parenthesis starts. -/
inductive Opening where
  | settings (settings : FlagSettings)
  | group (capturing : Bool) (settings : FlagSettings)
  deriving DecidableEq, Repr

namespace Opening

/-- May the character stand in the name of a group? Letters and `_` may come first; numbers, dots and brackets may
follow. -/
def isNameChar (first : Bool) (c : Char) : Bool :=
  c = '_' || if first then Text.isAlphabetic c else Text.isAlphanumeric c || c = '.' || c = '[' || c = ']'

/-- The fault in the name of a group, if there is one, where the first character stands at `offset`. -/
def nameFault? (first : Bool) (offset : Nat) : List Char → Option Fault
  | [] => some ((⟨offset, offset⟩ : Span).fault .unfinishedName)
  | c :: rest =>
    if c = '>' then if first then some ((⟨offset, offset⟩ : Span).fault .emptyName) else none
    else if isNameChar first c then nameFault? false (offset + 1) rest
    else some ((⟨offset, offset + 1⟩ : Span).fault .invalidName)

/-- Steps over the name of a group and the bracket behind it, and keeps the name in mind. -/
def readName (cursor : Cursor) : Except Fault Cursor :=
  match nameFault? true cursor.offset cursor.rest with
  | some fault => .error fault
  | none =>
    let name := cursor.rest.takeWhile (· ≠ '>')
    let last := cursor.moveTo (cursor.rest.drop name.length)
    let span := last.since cursor.offset
    match cursor.names.lookup name with
    | some earlier => .error { reason := .repeatedName, span, earlier? := some earlier }
    | none => .ok { last.bump with names := cursor.names ++ [(name, span)] }

/-- The flag that a character stands for, or none for the hyphen behind which flags are turned off. -/
def flagOrNegation (offset : Nat) (c : Char) : Except Fault (Option Flag) :=
  if c = '-' then .ok none
  else match Flag.ofLetter? c with
    | some flag => .ok (some flag)
    | none => .error ((⟨offset, offset + 1⟩ : Span).fault .unknownFlag)

/-- Reads flags up to a colon or a closing parenthesis. Flags and hyphens so far are given with their places. -/
def readFlags (items : List (Option Flag × Span)) (offset : Nat) :
    List Char → Except Fault (List (Option Flag × Span) × List Char)
  | [] => .error ((⟨offset, offset⟩ : Span).fault .unfinishedFlags)
  | c :: rest =>
    if c = ':' ∨ c = ')' then .ok (items, c :: rest)
    else do
      let item ← flagOrNegation offset c
      let span : Span := ⟨offset, offset + 1⟩
      match items.lookup item with
      | some earlier =>
        let reason := if item.isNone then Reason.repeatedNegation else .repeatedFlag
        throw { reason, span, earlier? := some earlier }
      | none => readFlags (items ++ [(item, span)]) (offset + 1) rest

/-- The settings that flags make: those in front of the hyphen are on and those behind it off. -/
def settingsOf (on : Bool) : List (Option Flag) → FlagSettings
  | [] => []
  | none :: rest => settingsOf false rest
  | some flag :: rest => (flag, on) :: settingsOf on rest

/-- Reads what stands behind a parenthesis and a question mark. -/
def readSettings (opening question : Span) (cursor : Cursor) : Except Fault (Opening × Cursor) := do
  if cursor.rest.isEmpty then throw (opening.fault .unclosedGroup)
  let (items, rest) ← readFlags [] cursor.offset cursor.rest
  let behind := (cursor.moveTo rest).bump
  match items.getLast? with
  | some (none, span) => throw (span.fault .danglingNegation)
  | _ =>
    let settings := settingsOf true (items.map Prod.fst)
    if rest.head? = some ':' then return (.group false settings, behind)
    if settings.isEmpty then throw (question.fault .nothingToRepeat)
    return (.settings settings, behind)

/-- The signs of groups that look around without taking anything. -/
def lookArounds : List (List Char) := [['?', '='], ['?', '!'], ['?', '<', '='], ['?', '<', '!']]

/-- Reads an opening, from its parenthesis. -/
def read (cursor : Cursor) : Except Fault (Opening × Cursor) :=
  let first := cursor.bumpOver
  match lookArounds.findSome? first.bumpWord?, first.bumpWord? ['?', 'P', '<'] <|> first.bumpWord? ['?', '<'],
      first.bumpWord? ['?'] with
  | some behind, _, _ => .error ((behind.since cursor.offset).fault .lookAround)
  | _, some name, _ => do return (.group true [], ← readName name)
  | _, _, some behind => readSettings cursor.next first.here behind
  | _, _, _ => .ok (.group true [], first)

end Opening

end BundleServer.Pattern
