/-
The lines of a file.

Files come with any of the three usual line ends.  Every line is read as if it ended with the plain
one, and a last line may have none.
-/
namespace PluginHelp.Text

/-- A text in which every line ends the same way. -/
def sameLineEnds : List Char → List Char
  | '\r' :: '\n' :: rest => '\n' :: sameLineEnds rest
  | '\r' :: rest => '\n' :: sameLineEnds rest
  | c :: rest => c :: sameLineEnds rest
  | [] => []

/-- The lines of a text, each with the line end that ends it. -/
def cutLines : List Char → List (List Char)
  | [] => []
  | c :: rest =>
    if c == '\n' then
      ['\n'] :: cutLines rest
    else
      match cutLines rest with
      | [] => [[c]]
      | line :: lines => (c :: line) :: lines

/-- The lines of a file. -/
def lines (text : String) : List String :=
  (cutLines (sameLineEnds text.toList)).map String.ofList

end PluginHelp.Text
