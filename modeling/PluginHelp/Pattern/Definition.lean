/-
The lines of code that define what is documented: functions, commands, settings and flags.
-/
import PluginHelp.Pattern.Character

namespace PluginHelp.Pattern

open PluginHelp.Text

/-- What stands between a defining word and the name: blanks, or an exclamation mark. -/
def definitionGap : Pattern :=
  blanks ++ char '!' ++ blanks <|> someBlanks

/-- A function: its namespace, its name and its parameters. -/
def functionLine : Pattern :=
  atStart ++ blanks ++ text "fu"
    ++ optional (text "n" <|> text "nc" <|> text "nct" <|> text "ncti" <|> text "nctio"
      <|> text "nction")
    ++ definitionGap
    ++ optional (capture 1 (oneOrMore (name ++ char '#')))
    ++ capture 2 name
    ++ blanks ++ char '('
    ++ capture 3 (many (one (· != ')')))
    ++ char ')'

/-- One parameter of a function. -/
def parameter : Pattern :=
  capture 1 (name <|> ellipsis)

/-- A command: its attributes and its name. -/
def commandLine : Pattern :=
  atStart ++ blanks ++ text "com"
    ++ optional (text "m" <|> text "ma" <|> text "man" <|> text "mand")
    ++ definitionGap
    ++ capture 1 (many (char '-' ++ oneOrMore solid ++ blanks))
    ++ capture 2 name

/-- A global setting: its name, which may be indexed, interpolated or dotted. -/
def settingLine : Pattern :=
  atStart ++ blanks ++ text "let" ++ someBlanks ++ text "g:"
    ++ capture 1 (one isNameStart ++ many (one fun c =>
      isNameRest c || c == '{' || c == '}' || c == '[' || c == ']' || c == '.'))

/-- A text between single quotes, in which a quote is written twice. -/
def singleQuoted : Pattern :=
  char '\'' ++ capture 1 (many (one (· != '\'') <|> text "''")) ++ char '\''

/-- A text between double quotes, in which a backslash escapes what follows it. -/
def doubleQuoted : Pattern :=
  char '"'
    ++ capture 2 (many (one (fun c => c != '\\' && c != '"') <|> char '\\' ++ one (· != '\n')))
    ++ char '"'

/-- A character other than a parenthesis. -/
def unparenthesised : Pattern :=
  one fun c => c != '(' && c != ')'

/-- A piece of an expression: a character, or a pair of parentheses with none inside. -/
def expressionPiece : Pattern :=
  unparenthesised <|> char '(' ++ oneOrMore unparenthesised ++ char ')'

/-- A flag: its name in either kind of quotes, and the value it has by default. -/
def flagLine : Pattern :=
  atStart ++ blanks ++ text "cal" ++ optional (char 'l') ++ blanks ++ restOfLine
    ++ text ".Flag("
    ++ (singleQuoted <|> doubleQuoted)
    ++ char ',' ++ blanks
    ++ optional
      (capture 3 (expressionPiece ++ reluctant expressionPiece) ++ blanks ++ char ')')

end PluginHelp.Pattern
