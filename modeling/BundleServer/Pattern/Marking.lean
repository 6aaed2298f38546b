import BundleServer.Pattern.Fault
import BundleServer.Text.Pieces

/-!
# Faults shown in their pattern

A fault is shown by the pattern with carets under the places of the fault. A pattern of several lines stands between
two rulers and gets line numbers; for a place that runs over several lines its ends are told.
-/

namespace BundleServer.Pattern

/-- A line and a column, both counted from one. -/
structure Place where
  line : Nat
  column : Nat
  deriving DecidableEq, Repr

/-- The place behind so many characters. -/
def Place.behind (chars : List Char) (count : Nat) : Place :=
  (chars.take count).foldl
    (fun place c => if c = '\n' then ⟨place.line + 1, 1⟩ else ⟨place.line, place.column + 1⟩) ⟨1, 1⟩

/-- The ends of a stretch. -/
structure Extent where
  start : Place
  stop : Place
  deriving DecidableEq, Repr

namespace Extent

/-- The ends of a stretch of the characters. -/
def ofSpan (chars : List Char) (span : Span) : Extent := ⟨.behind chars span.start, .behind chars span.stop⟩

/-- Does the stretch begin and end in the same line? -/
def isOneLine (extent : Extent) : Bool := extent.start.line = extent.stop.line

/-- The words for a stretch over several lines. -/
def note (extent : Extent) : String :=
  s!"on line {extent.start.line} (column {extent.start.column}) " ++
    s!"through line {extent.stop.line} (column {extent.stop.column - 1})"

end Extent

/-- So many times the same character. -/
def times (count : Nat) (c : Char) : String := String.ofList (List.replicate count c)

/-- Carets under stretches of one line. An empty stretch gets one caret as well. -/
def carets (extents : List Extent) : String :=
  String.ofList <| extents.foldl (fun line extent =>
    line ++ List.replicate (extent.start.column - 1 - line.length) ' ' ++
      List.replicate (max 1 (extent.stop.column - extent.start.column)) '^') []

/-- The lines of a pattern behind their margins, with carets under the stretches that lie in one line. -/
def markedLines (margin : Nat → String) (extents : List Extent) : Nat → List (List Char) → List String
  | _, [] => []
  | number, line :: rest =>
    let marked := extents.filter fun extent => extent.isOneLine && extent.start.line = number
    let below := if marked.isEmpty then [] else [times (margin number).length ' ' ++ carets marked]
    (margin number ++ String.ofList line) :: below ++ markedLines margin extents (number + 1) rest

/-- The margin of a numbered line. -/
def numberedMargin (width number : Nat) : String :=
  let digits := toString number
  times (width - digits.length) ' ' ++ digits ++ ": "

/-- The line in front of and behind a pattern of several lines. -/
def ruler : String := times 79 '~'

/-- The fault as people see it. -/
def Fault.message (pattern : String) (fault : Fault) : String :=
  let chars := pattern.toList
  let extents := fault.spans.map (Extent.ofSpan chars)
  let all :=
    if chars.contains '\n' then
      let width := (toString (Text.cut '\n' chars).length).length
      let marked := markedLines (numberedMargin width) extents 1 (Text.lines chars)
      ruler :: marked ++ ruler :: (extents.filter (!·.isOneLine)).map Extent.note
    else markedLines (fun _ => "    ") extents 1 (Text.lines chars)
  "\n".intercalate ("regex parse error:" :: all ++ [s!"error: {fault.reason.text}"])

end BundleServer.Pattern
