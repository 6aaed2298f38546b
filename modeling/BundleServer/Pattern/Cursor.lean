import BundleServer.Pattern.Fault
import BundleServer.Text.Blank

/-!
# Reading a pattern

A cursor stands in front of the characters that are still to be read. With free spacing on, white space and comments
between the parts of a pattern mean nothing, and moves step over them.
-/

namespace BundleServer.Pattern

/-- Where reading stands: how much has been read, what is still to come, whether spacing is free, and the names of the
groups so far with their places. -/
structure Cursor where
  offset : Nat
  rest : List Char
  freeSpacing : Bool := false
  names : List (List Char × Span) := []
  deriving DecidableEq, Repr

/-- What is left behind blanks and comments; a comment starts with `#` and takes the rest of its line. The first
argument tells whether the start lies in a comment. -/
def afterBlanks : Bool → List Char → List Char
  | _, [] => []
  | false, c :: rest =>
    if Text.isBlank c then afterBlanks false rest
    else if c = '#' then afterBlanks true rest
    else c :: rest
  | true, c :: rest => afterBlanks (c ≠ '\n') rest

theorem length_afterBlanks_le (inComment : Bool) (chars : List Char) :
    (afterBlanks inComment chars).length ≤ chars.length := by
  fun_induction afterBlanks inComment chars <;> simp_all
  all_goals omega

namespace Cursor

/-- The empty stretch at the cursor. -/
def here (cursor : Cursor) : Span := ⟨cursor.offset, cursor.offset⟩

/-- The stretch of the next character. -/
def next (cursor : Cursor) : Span := ⟨cursor.offset, cursor.offset + 1⟩

/-- The stretch from an earlier place to the cursor. -/
def since (cursor : Cursor) (start : Nat) : Span := ⟨start, cursor.offset⟩

/-- The cursor at a later place, given by what is left there. -/
def moveTo (cursor : Cursor) (rest : List Char) : Cursor :=
  { cursor with offset := cursor.offset + (cursor.rest.length - rest.length), rest }

/-- The cursor behind the next character. -/
def bump (cursor : Cursor) : Cursor := cursor.moveTo cursor.rest.tail

/-- The cursor behind what free spacing allows here. -/
def skipBlanks (cursor : Cursor) : Cursor :=
  if cursor.freeSpacing then cursor.moveTo (afterBlanks false cursor.rest) else cursor

/-- The cursor behind the next character and what free spacing allows there. -/
def bumpOver (cursor : Cursor) : Cursor := cursor.bump.skipBlanks

/-- The cursor behind a word, if it comes next. -/
def bumpWord? (cursor : Cursor) (word : List Char) : Option Cursor :=
  if word.isPrefixOf cursor.rest then some (cursor.moveTo (cursor.rest.drop word.length)) else none

/-- The character behind the next one. With free spacing on, blanks in between do not count, and neither does one sign
of a comment; where nothing else follows, the character right behind counts after all. -/
def second? (cursor : Cursor) : Option Char :=
  let behind := cursor.rest.tail
  if cursor.freeSpacing then
    let visible := behind.dropWhile Text.isBlank
    let visible := if visible.head? = some '#' then visible.tail.dropWhile Text.isBlank else visible
    visible.head? <|> behind.head?
  else behind.head?

theorem length_bumpOver_lt {cursor : Cursor} {c : Char} {rest : List Char} (h : cursor.rest = c :: rest) :
    cursor.bumpOver.rest.length < cursor.rest.length := by
  have := length_afterBlanks_le false rest
  unfold bumpOver skipBlanks bump moveTo
  split
  · simp only [h, List.tail_cons, List.length_cons]
    omega
  · simp only [h, List.tail_cons, List.length_cons]
    omega

/-- The next characters of a kind with their places, and the cursor behind them. Free spacing may stand between and
behind them. -/
def collect (kind : Char → Bool) (cursor : Cursor) : List (Nat × Char) × Cursor :=
  match coming : cursor.rest with
  | [] => ([], cursor)
  | c :: _ =>
    if kind c then
      have := length_bumpOver_lt coming
      let (more, last) := cursor.bumpOver.collect kind
      ((cursor.offset, c) :: more, last)
    else ([], cursor)
termination_by cursor.rest.length

end Cursor

end BundleServer.Pattern
