/-
What the directives of a doc comment accept after their name.
-/
import PluginHelp.Pattern.Character

namespace PluginHelp.Pattern

open PluginHelp.Text

/-- No text at all. -/
def noText : Pattern :=
  atStart ++ atEnd

/-- Any line, empty or not. -/
def anyLine : Pattern :=
  whole (capture 1 restOfLine)

/-- A line that is not empty. -/
def filledLine : Pattern :=
  whole (capture 1 (oneOrMore (one (· != '\n'))))

/-- An identifier between blanks, or blanks only. -/
def oneNameOrNone : Pattern :=
  atStart ++ blanks ++ optional (capture 1 name) ++ blanks ++ atEnd

/-- A text without blanks. -/
def oneWord : Pattern :=
  whole (capture 1 (oneOrMore solid))

/-- A section's title, in which commas and backslashes are escaped, and its identifier after a
comma.  The title ends with a character that is not a blank. -/
def sectionTitle : Pattern :=
  atStart
    ++ capture 1
      (oneOrMore (one (fun c => c != '\\' && c != ',') <|> char '\\' ++ one (· != '\n')) ++ solid)
    ++ optional (char ',' ++ blanks ++ capture 2 dashedName)
    ++ atEnd

/-- The identifier of a section, and whatever follows it. -/
def sectionReference : Pattern :=
  capture 1 dashedName

/-- A dictionary, and one of its members after a dot. -/
def dictionaryMember : Pattern :=
  atStart
    ++ capture 1 (one isNameStart ++ many (one fun c => isAsciiLetter c || isAsciiDigit c))
    ++ optional (char '.' ++ capture 2 name)
    ++ atEnd

/-- An argument, perhaps in brackets, and the value it has by default. -/
def defaultValue : Pattern :=
  atStart
    ++ capture 1 (char '[' ++ name ++ char ']' <|> name)
    ++ blanks ++ char '=' ++ blanks
    ++ capture 2 restOfLine
    ++ atEnd

/-- Numbers and blanks. -/
def numbers : Pattern :=
  whole (capture 1 (many (one fun c => isBlank c || isDigit c)))

/-- One number. -/
def number : Pattern :=
  oneOrMore (one isDigit)

/-- An identifier of a section in an order. -/
def orderedName : Pattern :=
  one isNameStart ++ many (one fun c => isNameRest c || c == '-')

/-- The sign that may end an order. -/
def orderSign : Pattern :=
  one fun c => c == '+' || c == '-'

/-- An order of sections: their identifiers, and perhaps a sign. -/
def sectionOrder : Pattern :=
  whole (capture 1 (oneOrMore (blanks ++ orderedName) ++ optional (blanks ++ orderSign)))

/-- One item of an order. -/
def orderItem : Pattern :=
  capture 1 (orderedName <|> orderSign)

/-- An error, and when it is thrown. -/
def thrownError : Pattern :=
  atStart ++ capture 1 name ++ optional (someBlanks ++ capture 2 restOfLine) ++ atEnd

/-- The number of an error of the editor itself. -/
def editorError : Pattern :=
  atStart ++ char 'E' ++ number ++ atEnd

/-- The scope that the name of a setting begins with. -/
def settingScope : Pattern :=
  one (fun c => 'a' ≤ c && c ≤ 'z') ++ char ':'

end PluginHelp.Pattern
