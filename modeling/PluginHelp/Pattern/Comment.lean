/-
Comments, continued lines and the lines of a doc comment.

A doc comment begins with a line whose comment sign is doubled.  A line that goes on with the one
before it begins with a backslash.
-/
import PluginHelp.Pattern.Character

namespace PluginHelp.Pattern

open PluginHelp.Text

/-- The sign that begins a doc comment, with one space after it. -/
def docLeader : Pattern :=
  atStart ++ blanks ++ text "\"\"" ++ optional (char ' ')

/-- A line that begins a doc comment and holds nothing else. -/
def bareDocLeader : Pattern :=
  atStart ++ blanks ++ text "\"\"" ++ atEnd

/-- The sign that begins a comment, with one space after it. -/
def commentLeader : Pattern :=
  atStart ++ blanks ++ char '"' ++ optional (char ' ')

/-- The sign that a line goes on with the one before it. -/
def continuation : Pattern :=
  atStart ++ blanks ++ char '\\'

/-- A comment that holds nothing. -/
def blankComment : Pattern :=
  atStart ++ blanks ++ char '"' ++ blanks ++ atEnd

/-- A line that holds nothing. -/
def blankLine : Pattern :=
  atStart ++ blanks ++ atEnd

/-- A comment that is a directive: its name, and what is said about it. -/
def directive : Pattern :=
  atStart ++ blanks ++ char '"' ++ blanks ++ char '@' ++ capture 1 name
    ++ (someBlanks <|> atEnd) ++ capture 2 restOfLine

end PluginHelp.Pattern
