/-
The sheet that a help page is written on.

No line but the first of a page may be wider than the sheet.  A line of text may have a part at the
right margin, which goes on a line of its own if it does not fit.
-/
import PluginHelp.Act
import PluginHelp.Help.Fill

namespace PluginHelp

/-- What has been written.  A sheet that has been taken away takes no more text. -/
structure Sheet where
  isThere : Bool := true
  written : String := ""

namespace Help

/-- The width of a sheet. -/
def sheetWidth : Nat :=
  78

/-- Writes a line as it is. -/
def print (line : String) (ending : String) (wide : Bool) : Act Sheet Unit := do
  Act.assume (wide || line.length ≤ sheetWidth) "Lines fit on the sheet."
  if (← Act.get).isThere then
    Act.modify fun s => { s with written := s.written ++ line ++ ending }
  else
    Act.fail .noPage

/-- Writes a line that fits on the sheet. -/
def printLine (line : String) : Act Sheet Unit :=
  print line "\n" false

/-- Writes a row that divides the page. -/
def writeRow : Act Sheet Unit :=
  printLine (String.ofList (List.replicate sheetWidth '='))

/-- The indentation of a level. -/
def indentation (level : Int) : String :=
  String.ofList (List.replicate (2 * level.toNat) ' ')

/-- What a line of text consists of. -/
structure TextLine where
  text : String := ""
  /-- The part at the right margin. -/
  right : String := ""
  indent : Int := 0
  /-- What the first line begins with; all others are then indented once more. -/
  leader : Option String := none
  /-- What fills the room before the right part. -/
  filler : String := " "

/-- How the text of a line is filled. -/
def TextLine.filling (l : TextLine) : Filling where
  width := sheetWidth
  first := indentation l.indent ++ l.leader.getD ""
  later := indentation (if l.leader.isSome then l.indent + 1 else l.indent)
  atHyphens := false

/-- Lines, at least an empty one. -/
def atLeastOne (lines : List String) : List String :=
  if lines.isEmpty then [""] else lines

/-- A text several times over. -/
def repeated (s : String) (count : Nat) : String :=
  String.join (List.replicate count s)

/-- Puts the right part on the last line, or on a further one if it would touch the text. -/
def withRight (l : TextLine) (lines : List String) : List String :=
  if l.right == "" then
    lines
  else
    let last := lines.getLast?.getD ""
    let (before, last) :=
      if last.length + l.right.length + 1 > sheetWidth then (lines, "") else (lines.dropLast, last)
    before ++ [last ++ repeated l.filler (sheetWidth - last.length - l.right.length) ++ l.right]

/-- Writes text, on as many lines as it needs. -/
def writeText (l : TextLine) : Act Sheet Unit := do
  let lines := atLeastOne (fill l.filling l.text)
  Act.assume (l.right.length ≤ sheetWidth) "The right part fits on the sheet."
  Act.each (withRight l lines) printLine

/-- Writes a line of code, whose words may be broken at hyphens. -/
def writeCode (code : String) (indent : Int) : Act Sheet Unit :=
  let filling : Filling :=
    { width := sheetWidth
      first := indentation indent
      later := indentation (indent + 2)
      atHyphens := true }
  Act.each (atLeastOne (fill filling code)) printLine

end Help

end PluginHelp
