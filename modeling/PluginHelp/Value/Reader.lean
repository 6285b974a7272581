/-
Reading a plugin's description.

The notation is that of nested lists and objects with quoted texts.  Of two fields with the same name
the last one counts.  Every step takes at least one character before it is repeated, so a bound that
grows with the text is never reached.
-/
import PluginHelp.Table
import PluginHelp.Value.Basic
import PluginHelp.Value.Decimal

namespace PluginHelp.Value

/-- Why a description cannot be read. -/
inductive Unreadable where
  /-- It is not written as it should be. -/
  | malformed
  /-- Its values lie too deep in each other. -/
  | tooDeep
deriving DecidableEq, Repr

/-- How deep values may lie in each other. -/
def deepest : Nat :=
  990

/-- How many digits a whole number may have. -/
def longest : Nat :=
  4300

/-- What is left after the spaces between values. -/
def skipSpaces (s : List Char) : List Char :=
  s.dropWhile fun c => c == ' ' || c == '\t' || c == '\n' || c == '\r'

/-! ### Texts -/

/-- The value of a digit of base sixteen. -/
def hexValue? (c : Char) : Option Nat :=
  if '0' ≤ c && c ≤ '9' then some (c.toNat - 48)
  else if 'a' ≤ c && c ≤ 'f' then some (c.toNat - 87)
  else if 'A' ≤ c && c ≤ 'F' then some (c.toNat - 55)
  else none

/-- The number that four digits of base sixteen write. -/
def hexNumber? (a b c d : Char) : Option Nat := do
  return ((← hexValue? a) * 16 + (← hexValue? b)) * 256 + ((← hexValue? c) * 16 + (← hexValue? d))

/-- The character that a single letter after a backslash means. -/
def escaped? : Char → Option Char
  | '"' => some '"'
  | '\\' => some '\\'
  | '/' => some '/'
  | 'b' => some '\x08'
  | 'f' => some '\x0c'
  | 'n' => some '\n'
  | 'r' => some '\r'
  | 't' => some '\t'
  | _ => none

/-- The character of a code unit; half of a pair that stands alone has none of its own. -/
def unitChar (n : Nat) : Char :=
  if 0xD800 ≤ n && n < 0xE000 then Char.ofNat 0xFFFD else Char.ofNat n

/-- Whether two code units are the halves of a pair. -/
def isPair (high low : Nat) : Bool :=
  0xD800 ≤ high && high < 0xDC00 && 0xDC00 ≤ low && low < 0xE000

/-- The character of a pair of code units. -/
def pairChar (high low : Nat) : Char :=
  Char.ofNat (0x10000 + (high - 0xD800) * 0x400 + (low - 0xDC00))

/-- The rest of a text up to its closing quote, and what is left after that. -/
def readText : List Char → Option (List Char × List Char)
  | '"' :: rest => some ([], rest)
  | '\\' :: 'u' :: a :: b :: c :: d :: '\\' :: 'u' :: e :: f :: g :: h :: rest =>
    match hexNumber? a b c d, hexNumber? e f g h with
    | some high, some low =>
      if isPair high low then
        (readText rest).map fun (s, left) => (pairChar high low :: s, left)
      else
        (readText ('\\' :: 'u' :: e :: f :: g :: h :: rest)).map fun (s, left) =>
          (unitChar high :: s, left)
    | _, _ => none
  | '\\' :: 'u' :: a :: b :: c :: d :: rest =>
    match hexNumber? a b c d with
    | some n => (readText rest).map fun (s, left) => (unitChar n :: s, left)
    | none => none
  | '\\' :: c :: rest =>
    match escaped? c with
    | some e => (readText rest).map fun (s, left) => (e :: s, left)
    | none => none
  | c :: rest =>
    if c.toNat < 0x20 || c == '\\' then
      none
    else
      (readText rest).map fun (s, left) => (c :: s, left)
  | [] => none

/-! ### Numbers -/

/-- The digits at the start of a text, and what is left. -/
def readDigits (s : List Char) : List Char × List Char :=
  (s.takeWhile Char.isDigit, s.dropWhile Char.isDigit)

/-- The whole part of a number: zero, or digits that do not begin with one. -/
def readWhole : List Char → Option (List Char × List Char)
  | '0' :: rest => some (['0'], rest)
  | c :: rest => if '1' ≤ c && c ≤ '9' then some (readDigits (c :: rest)) else none
  | [] => none

/-- The digits after a point, if there are any. -/
def readFraction : List Char → List Char × List Char
  | '.' :: rest =>
    let (digits, left) := readDigits rest
    if digits.isEmpty then ([], '.' :: rest) else ('.' :: digits, left)
  | s => ([], s)

/-- The sign that an exponent may have. -/
def readSign : List Char → List Char × List Char
  | '+' :: rest => (['+'], rest)
  | '-' :: rest => (['-'], rest)
  | s => ([], s)

/-- The exponent, if there is one. -/
def readExponent : List Char → List Char × List Char
  | c :: rest =>
    if c == 'e' || c == 'E' then
      let (sign, afterSign) := readSign rest
      let (digits, left) := readDigits afterSign
      if digits.isEmpty then ([], c :: rest) else (c :: sign ++ digits, left)
    else
      ([], c :: rest)
  | [] => ([], [])

/-- The number that digits write. -/
def digitsValue (digits : List Char) : Nat :=
  digits.foldl (fun n c => n * 10 + (c.toNat - 48)) 0

/-- The number that an exponent writes. -/
def exponentValue (exponent : List Char) : Int :=
  match exponent.drop 1 with
  | '-' :: digits => -(digitsValue digits)
  | '+' :: digits => digitsValue digits
  | digits => digitsValue digits

/-- The value that a whole part, a fraction and an exponent write; whole numbers must not be too
long. -/
def numberOf? (isNegative : Bool) (whole fraction exponent : List Char) : Option Value :=
  if fraction.isEmpty && exponent.isEmpty then
    let n : Int := digitsValue whole
    if longest < whole.length then none else some (number (if isNegative then -n else n))
  else
    let places := fraction.drop 1
    let shown := Decimal.shownKept
      ⟨digitsValue (whole ++ places), exponentValue exponent - places.length⟩
    some (real (String.ofList (if isNegative then '-' :: shown else shown)))

/-- A number. -/
def readNumber (s : List Char) : Option (Value × List Char) :=
  let (isNegative, unsigned) := match s with
    | '-' :: rest => (true, rest)
    | s => (false, s)
  match readWhole unsigned with
  | none => none
  | some (whole, rest) =>
    let (fraction, afterFraction) := readFraction rest
    let (exponent, left) := readExponent afterFraction
    (numberOf? isNegative whole fraction exponent).map fun value => (value, left)

/-! ### Values -/

/-- The words that stand for a value. -/
def words : List (String × Value) :=
  [("null", nothing), ("true", flag true), ("false", flag false), ("NaN", real "nan"),
    ("Infinity", real "inf"), ("-Infinity", real "-inf")]

/-- A word that stands for a value. -/
def readWord (s : List Char) : Option (Value × List Char) :=
  (words.find? fun w => w.1.toList.isPrefixOf s).map fun w =>
    (w.2, s.drop w.1.toList.length)

/-- What was read, if it is well written. -/
def wellFormed {α : Type} : Option α → Except Unreadable α
  | some a => .ok a
  | none => .error .malformed

mutual

/-- A value, and what is left after it.  It may hold values down to the given depth. -/
def readValue : (bound depth : Nat) → List Char → Except Unreadable (Value × List Char)
  | 0, _, _ => .error .malformed
  | bound + 1, depth, s =>
    match s with
    | '"' :: rest =>
      wellFormed ((readText rest).map fun (s, left) => (text (String.ofList s), left))
    | '[' :: rest =>
      match depth with
      | 0 => .error .tooDeep
      | depth + 1 =>
        match skipSpaces rest with
        | ']' :: left => .ok (list [], left)
        | rest => (readItems bound depth rest).map fun (items, left) => (list items, left)
    | '{' :: rest =>
      match depth with
      | 0 => .error .tooDeep
      | depth + 1 =>
        match skipSpaces rest with
        | '}' :: left => .ok (object [], left)
        | rest => (readFields bound depth [] rest).map fun (fields, left) => (object fields, left)
    | s => wellFormed ((readWord s).or (readNumber s))

/-- The items of a list up to its closing bracket. -/
def readItems : (bound depth : Nat) → List Char → Except Unreadable (List Value × List Char)
  | 0, _, _ => .error .malformed
  | bound + 1, depth, s =>
    match readValue bound depth s with
    | .error why => .error why
    | .ok (item, rest) =>
      match skipSpaces rest with
      | ']' :: left => .ok ([item], left)
      | ',' :: rest =>
        (readItems bound depth (skipSpaces rest)).map fun (items, left) => (item :: items, left)
      | _ => .error .malformed

/-- The fields of an object up to its closing brace, added to those read so far. -/
def readFields : (bound depth : Nat) → List (String × Value) → List Char →
    Except Unreadable (List (String × Value) × List Char)
  | 0, _, _, _ => .error .malformed
  | bound + 1, depth, fields, '"' :: s =>
    match readText s with
    | none => .error .malformed
    | some (key, rest) =>
      match skipSpaces rest with
      | ':' :: rest =>
        match readValue bound depth (skipSpaces rest) with
        | .error why => .error why
        | .ok (value, rest) =>
          let fields := Table.set fields (String.ofList key) value
          match skipSpaces rest with
          | '}' :: left => .ok (fields, left)
          | ',' :: rest => readFields bound depth fields (skipSpaces rest)
          | _ => .error .malformed
      | _ => .error .malformed
  | _ + 1, _, _, _ => .error .malformed

end

/-- Reads a whole description. -/
def read (s : String) : Except Unreadable Value :=
  let chars := s.toList
  match readValue (2 * chars.length + 2) deepest (skipSpaces chars) with
  | .error why => .error why
  | .ok (value, rest) => if (skipSpaces rest).isEmpty then .ok value else .error .malformed

/-- A field of an object. -/
def field? : Value → String → Option Value
  | object fields, key => Table.get? fields key
  | _, _ => none

end PluginHelp.Value
