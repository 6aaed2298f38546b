import BundleServer.Pattern.Brackets
import BundleServer.Pattern.Nesting
import BundleServer.Pattern.Opening

/-!
# Reading expressions

A pattern is read from left to right. A repetition takes the part in front of it, a bar ends a branch, and a closing
parenthesis a group. The first fault ends the reading; only the depth is checked when all has been read.
-/

namespace BundleServer.Pattern

/-- A group while it is read: where it starts, its finished branches, where the branch under way starts, and the parts
of that branch. Branches and parts stand latest first. -/
structure Inside where
  start : Nat
  branches : List Expression := []
  branchStart : Nat
  parts : List Expression := []
  deriving Repr

namespace Inside

/-- A group that starts at a place. -/
def startAt (offset : Nat) : Inside := { start := offset, branchStart := offset }

/-- The group with a further part. -/
def push (inside : Inside) (part : Expression) : Inside := { inside with parts := part :: inside.parts }

/-- The branch under way, which ends at a place. -/
def branch (inside : Inside) (stop : Nat) : Expression :=
  match inside.parts with
  | [] => .empty ⟨inside.branchStart, stop⟩
  | [part] => part
  | parts => .sequence ⟨inside.branchStart, stop⟩ parts.reverse

/-- The group at the start of a branch, behind a bar at a place. -/
def nextBranch (inside : Inside) (bar : Nat) : Inside :=
  { inside with branches := inside.branch bar :: inside.branches, branchStart := bar + 1, parts := [] }

/-- The whole group, which ends at a place. -/
def whole (inside : Inside) (stop : Nat) : Expression :=
  match inside.branches with
  | [] => inside.branch stop
  | branches => .alternation ⟨inside.start, stop⟩ (branches.reverse ++ [inside.branch stop])

/-- Takes the last part for a repetition. Flags cannot be repeated. -/
def takeLast (inside : Inside) (cursor : Cursor) : Except Fault (Expression × Inside) :=
  match inside.parts with
  | [] | .settings .. :: _ => .error (cursor.here.fault .nothingToRepeat)
  | part :: parts => .ok (part, { inside with parts })

end Inside

/-- How often something is repeated, and where this has been read to. -/
structure Repetition where
  least : Nat
  most? : Option Nat
  cursor : Cursor
  deriving Repr

namespace Repetition

/-- Steps over the question mark that makes a repetition as short as can be. -/
def skipLazy (cursor : Cursor) : Cursor := if cursor.rest.head? = some '?' then cursor.bump else cursor

/-- The repetition that a sign stands for. -/
def ofSign (least : Nat) (most? : Option Nat) (cursor : Cursor) : Repetition := ⟨least, most?, skipLazy cursor.bump⟩

/-- The greatest count. -/
def countLimit : Nat := 4294967295

/-- Reads a number, which may stand between blanks. -/
def readNumber (cursor : Cursor) : Except Fault (Nat × Cursor) :=
  let first := cursor.moveTo (cursor.rest.dropWhile Text.isBlank)
  let (digits, last) := first.collect Char.isDigit
  let value := digits.foldl (fun value digit => value * 10 + (digit.2.toNat - 0x30)) 0
  if digits.isEmpty then .error ((last.since first.offset).fault .emptyCount)
  else if countLimit < value then .error ((last.since first.offset).fault .invalidNumber)
  else .ok (value, (last.collect Text.isBlank).2)

/-- Reads a count between braces, from the opening one: a number, a least number, or both ends. -/
def readCount (cursor : Cursor) : Except Fault Repetition := do
  let unclosed (place : Cursor) : Fault := (place.since cursor.offset).fault .unclosedCount
  let first := cursor.bumpOver
  if first.rest.isEmpty then throw (unclosed first)
  let (least, behind) ← readNumber first
  let (most?, behind) ←
    if behind.rest.head? ≠ some ',' then pure (some least, behind)
    else do
      let next := behind.bumpOver
      if next.rest.isEmpty then throw (unclosed next)
      if next.rest.head? = some '}' then pure (none, next)
      else do
        let (most, behind) ← readNumber next
        pure (some most, behind)
  if behind.rest.head? ≠ some '}' then throw (unclosed behind)
  let last := skipLazy behind.bumpOver
  match most? with
  | some most => if most < least then throw ((last.since cursor.offset).fault .reversedCount)
  | none => pure ()
  return ⟨least, most?, last⟩

end Repetition

/-- Puts a repetition in the place of the last part. -/
def Inside.repeatLast (inside : Inside) (part : Expression) (repetition : Repetition) : Inside :=
  inside.push (.repeated ⟨part.span.start, repetition.cursor.offset⟩ repetition.least repetition.most? part)

/-- Reads an atom outside of brackets. -/
def readAtom (cursor : Cursor) : Except Fault (Atom × Cursor) :=
  match cursor.rest with
  | '\\' :: _ => Escape.read cursor
  | '.' :: _ => .ok (.dot cursor.next, cursor.bump)
  | '^' :: _ => .ok (.assertion cursor.next .startOfLine, cursor.bump)
  | '$' :: _ => .ok (.assertion cursor.next .endOfLine, cursor.bump)
  | c :: _ => .ok (.literal { span := cursor.next, char := c }, cursor.bump)
  | [] => .error (cursor.here.fault .unfinishedEscape)

/-- Reads on in a group up to a closing parenthesis or the end. Every step takes at least one character, so as many
steps as there are characters are enough. -/
def readInside : Nat → Inside → Cursor → Except Fault (Expression × Cursor)
  | 0, inside, cursor => .ok (inside.whole cursor.offset, cursor)
  | steps + 1, inside, cursor => do
    let cursor := cursor.skipBlanks
    match cursor.rest with
    | [] | ')' :: _ => return (inside.whole cursor.offset, cursor)
    | '|' :: _ => readInside steps (inside.nextBranch cursor.offset) cursor.bump
    | '(' :: _ => match ← Opening.read cursor with
      | (.settings settings, behind) =>
        let freeSpacing := settings.value .freeSpacing cursor.freeSpacing
        readInside steps (inside.push (.settings (behind.since cursor.offset) settings)) { behind with freeSpacing }
      | (.group capturing settings, behind) =>
        let freeSpacing := settings.value .freeSpacing cursor.freeSpacing
        let (inner, last) ← readInside steps (.startAt behind.offset) { behind with freeSpacing }
        if last.rest.isEmpty then throw (cursor.next.fault .unclosedGroup)
        let behind := { last.bump with freeSpacing := cursor.freeSpacing }
        readInside steps (inside.push (.group (behind.since cursor.offset) capturing settings inner)) behind
    | '[' :: _ =>
      let (set, behind) ← Brackets.read cursor
      readInside steps (inside.push (.charClass set)) behind
    | '{' :: _ =>
      let (part, inside) ← inside.takeLast cursor
      let repetition ← Repetition.readCount cursor
      readInside steps (inside.repeatLast part repetition) repetition.cursor
    | '?' :: _ =>
      let (part, inside) ← inside.takeLast cursor
      let repetition := Repetition.ofSign 0 (some 1) cursor
      readInside steps (inside.repeatLast part repetition) repetition.cursor
    | '*' :: _ =>
      let (part, inside) ← inside.takeLast cursor
      let repetition := Repetition.ofSign 0 none cursor
      readInside steps (inside.repeatLast part repetition) repetition.cursor
    | '+' :: _ =>
      let (part, inside) ← inside.takeLast cursor
      let repetition := Repetition.ofSign 1 none cursor
      readInside steps (inside.repeatLast part repetition) repetition.cursor
    | _ =>
      let (atom, behind) ← readAtom cursor
      readInside steps (inside.push (.atom atom)) behind

/-- Reads a pattern. -/
def Expression.parse (pattern : List Char) : Except Fault Expression := do
  let (expression, last) ← readInside pattern.length.succ (.startAt 0) { offset := 0, rest := pattern }
  if !last.rest.isEmpty then throw (last.next.fault .unopenedGroup)
  expression.checkDepth 0
  return expression

end BundleServer.Pattern
