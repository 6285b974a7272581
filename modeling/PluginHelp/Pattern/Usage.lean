/-
Usage lines: the arguments they name and the holes that are filled for them.

A hole is a pair of brackets with nothing between them.  Holes and arguments in running text count
only where a blank precedes them and no word goes on after them.
-/
import PluginHelp.Pattern.Character

namespace PluginHelp.Pattern

open PluginHelp.Text

/-- A pattern that stands by itself: a blank or the start before it, no word character after it. -/
def standing (p : Pattern) : Pattern :=
  test (fun read _ => read.head?.all isBlank) ++ p ++ test (fun _ rest => !rest.head?.any isWord)

/-- A required argument in braces, or the hole for required arguments. -/
def bracedSlot : Pattern :=
  char '{' ++ optional argument ++ char '}'

/-- An optional argument in brackets, or the hole for optional arguments. -/
def bracketedSlot : Pattern :=
  char '[' ++ optional argument ++ char ']'

/-- The hole for all arguments, required ones first. -/
def argumentsHole : Pattern :=
  chars ['{', ']']

/-- An optional argument in brackets, where dots count as letters. -/
def dottedSlot : Pattern :=
  char '['
    ++ optional (one (fun c => isNameStart c || c == '.')
      ++ many (one fun c => isNameRest c || c == '.') ++ optional ellipsis)
    ++ char ']'

/-- The arguments of a usage line. -/
def usageLine : Pattern :=
  whole (capture 1
    (many (blanks ++ (bracedSlot <|> dottedSlot <|> argument <|> argumentsHole))))

/-- One argument or hole of a usage line. -/
def usageSlot : Pattern :=
  bracedSlot <|> bracketedSlot <|> argumentsHole <|> argument

/-- The hole for the name of what is documented. -/
def nameHole : Pattern :=
  text "<>"

/-- The hole for the required arguments. -/
def requiredHole : Pattern :=
  standing (text "{}")

/-- The hole for the optional arguments. -/
def optionalHole : Pattern :=
  standing (text "[]")

/-- A required argument in running text. -/
def requiredArgument : Pattern :=
  standing (char '{' ++ capture 1 argument ++ char '}')

/-- An optional argument in running text. -/
def optionalArgument : Pattern :=
  standing (char '[' ++ capture 1 argument ++ char ']')

/-- A hole that is meant as text: bars between its brackets, one more than are written out. -/
def escapedHole (opening closing : Char) : Pattern :=
  char opening ++ char '|' ++ capture 1 (many (char '|')) ++ char closing

/-- A separator that an empty hole has left behind. -/
def emptySeparator : Pattern :=
  oneOrMore (text ", ") ++ before ", " <|> oneOrMore (char ' ') ++ before " "

end PluginHelp.Pattern
