/-
The character classes that the patterns share, and the words made of them.
-/
import PluginHelp.Pattern.Basic
import PluginHelp.Text.Blank
import PluginHelp.Text.Word

namespace PluginHelp.Pattern

open PluginHelp.Text

/-- A character that an identifier may begin with. -/
def isNameStart (c : Char) : Bool :=
  isAsciiLetter c || c == '_'

/-- A character that an identifier may go on with. -/
def isNameRest (c : Char) : Bool :=
  isAsciiLetter c || isAsciiDigit c || c == '_'

/-- Any number of blanks. -/
def blanks : Pattern :=
  many (one isBlank)

/-- At least one blank. -/
def someBlanks : Pattern :=
  oneOrMore (one isBlank)

/-- One character that is not a blank. -/
def solid : Pattern :=
  one fun c => !isBlank c

/-- The rest of the line. -/
def restOfLine : Pattern :=
  many (one (· != '\n'))

/-- An identifier. -/
def name : Pattern :=
  one isNameStart ++ many (one isNameRest)

/-- An identifier in which dashes count as letters. -/
def dashedName : Pattern :=
  one (fun c => isNameStart c || c == '-') ++ many (one fun c => isNameRest c || c == '-')

/-- The dots that mark a repeated argument. -/
def ellipsis : Pattern :=
  text "..."

/-- The name of an argument, which may be marked as repeated. -/
def argument : Pattern :=
  name ++ optional ellipsis

end PluginHelp.Pattern
