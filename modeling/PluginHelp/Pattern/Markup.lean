/-
The marks inside documentation text: list items and inline directives.
-/
import PluginHelp.Pattern.Character

namespace PluginHelp.Pattern

open PluginHelp.Text

/-- The start of a list item: a bullet, or a number and a dot. -/
def listItem : Pattern :=
  atStart ++ blanks
    ++ capture 1 (one (fun c => c == '*' || c == '+' || c == '-')
      <|> oneOrMore (one isDigit) ++ char '.')
    ++ someBlanks

/-- An inline directive, and the element it is about, in parentheses. -/
def inlineDirective : Pattern :=
  char '@' ++ capture 1 name
    ++ optional
      (char '(' ++ capture 2 (oneOrMore (one fun c => !isBlank c && c != ')')) ++ char ')')

end PluginHelp.Pattern
