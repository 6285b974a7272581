/-
Texts and lists as messages show them.

A quoted text stands between single quotes, or between double quotes when it holds a single quote
and no double one.  The backslash, the quote in use, line ends and tabs are escaped; any other
character that cannot be shown is spelled by its code point in two, four or eight digits.
-/
import PluginHelp.Text.Printable

namespace PluginHelp.Text

/-- One digit of base sixteen, in small letters. -/
def hexDigit (n : Nat) : Char :=
  if n < 10 then Char.ofNat (48 + n) else Char.ofNat (87 + n)

/-- The `width` low digits of `n` in base sixteen. -/
def hexDigits : Nat → Nat → List Char
  | 0, _ => []
  | width + 1, n => hexDigits width (n / 16) ++ [hexDigit (n % 16)]

/-- A character inside a text quoted by `quote`. -/
def quoteChar (quote c : Char) : List Char :=
  if c == quote || c == '\\' then ['\\', c]
  else if c == '\n' then ['\\', 'n']
  else if c == '\r' then ['\\', 'r']
  else if c == '\t' then ['\\', 't']
  else if isPrintable c then [c]
  else if c.toNat < 0x100 then '\\' :: 'x' :: hexDigits 2 c.toNat
  else if c.toNat < 0x10000 then '\\' :: 'u' :: hexDigits 4 c.toNat
  else '\\' :: 'U' :: hexDigits 8 c.toNat

/-- The quote that a text is shown with. -/
def quoteFor (s : String) : Char :=
  if s.toList.contains '\'' && !s.toList.contains '"' then '"' else '\''

/-- A text as a message shows it. -/
def quoted (s : String) : String :=
  let quote := quoteFor s
  String.ofList (quote :: s.toList.flatMap (quoteChar quote) ++ [quote])

/-- A list whose items are already shown: between brackets, a comma and a space apart. -/
def bracketed (items : List String) : String :=
  "[" ++ ", ".intercalate items ++ "]"

end PluginHelp.Text
