/-
Blank characters, and trimming them.

A blank is a character that separates words: the ASCII spaces and line ends, the four information
separators, and the spaces and line separators of the other scripts.  The zero-width characters are
not blanks.
-/
namespace PluginHelp.Text

/-- A character that separates words. -/
def isBlank (c : Char) : Bool :=
  let n := c.toNat
  (9 ≤ n && n ≤ 13) || (28 ≤ n && n ≤ 32) || n == 0x85 || n == 0xA0 || n == 0x1680
    || (0x2000 ≤ n && n ≤ 0x200A) || n == 0x2028 || n == 0x2029 || n == 0x202F || n == 0x205F
    || n == 0x3000

/-- `dropEndWhile p s` leaves out the longest tail of `s` whose characters all satisfy `p`. -/
def dropEndWhile (p : Char → Bool) (s : List Char) : List Char :=
  (s.reverse.dropWhile p).reverse

/-- A text without its leading blanks. -/
def trimStart (s : String) : String :=
  String.ofList (s.toList.dropWhile isBlank)

/-- A text without its trailing blanks. -/
def trimEnd (s : String) : String :=
  String.ofList (dropEndWhile isBlank s.toList)

/-- A text that has no character but blanks. -/
def isBlankText (s : String) : Bool :=
  s.toList.all isBlank

end PluginHelp.Text
