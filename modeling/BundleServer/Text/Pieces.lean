/-!
# Pieces of a text

Cutting a text at every occurrence of a character, and into lines.
-/

namespace BundleServer.Text

/-- The pieces of characters between the occurrences of one of them. -/
def cut (separator : Char) : List Char → List (List Char)
  | [] => [[]]
  | c :: rest =>
    if c = separator then [] :: cut separator rest
    else match cut separator rest with
      | [] => [[c]]
      | piece :: more => (c :: piece) :: more

/-- The pieces of a text between the occurrences of a character. -/
def pieces (separator : Char) (text : String) : List String := (cut separator text.toList).map String.ofList

/-- A line without the carriage return in front of its end. -/
def dropReturn (line : List Char) : List Char := if line.getLast? = some '\r' then line.dropLast else line

/-- The lines of a text. Nothing behind the last end of line is no line, and a carriage return counts to the end of a
line only in front of a line feed. -/
def lines (chars : List Char) : List (List Char) :=
  let pieces := cut '\n' chars
  let ended := pieces.dropLast.map dropReturn
  match pieces.getLast? with
  | none | some [] => ended
  | some last => ended ++ [last]

end BundleServer.Text
