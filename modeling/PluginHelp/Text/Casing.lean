/-
Capital and small letters.

Both maps work on whole texts, because a letter may turn into several characters, and because the
small form of the Greek sigma depends on whether a word ends with it.
-/
import PluginHelp.Text.CasingTable

namespace PluginHelp.Text

/-- The counterpart of a code point, if the run holds it. -/
def CaseRun.shifted? (r : CaseRun) (n : Nat) : Option Nat :=
  if r.first ≤ n && n ≤ r.last && (n - r.first) % r.stride == 0 then
    some ((n : Int) + r.shift).toNat
  else
    none

/-- The capital form of a character. -/
def capital (c : Char) : List Char :=
  if c.toNat < 128 then
    [if 'a' ≤ c && c ≤ 'z' then Char.ofNat (c.toNat - 32) else c]
  else
    match capitalSpellings.lookup c.toNat with
    | some spelling => spelling.map Char.ofNat
    | none =>
      match capitalRuns.findSome? (·.shifted? c.toNat) with
      | some n => [Char.ofNat n]
      | none => [c]

/-- A text in capitals. -/
def upper (s : String) : String :=
  String.ofList (s.toList.flatMap capital)

/-- A capital sigma ends a word when a cased letter stands before it and none after it. -/
def endsWord (before after : List Char) : Bool :=
  (before.dropWhile caseIgnorable.mem).head?.any cased.mem
    && !(after.dropWhile caseIgnorable.mem).head?.any cased.mem

/-- The small form of a character; `before` is what precedes it, nearest first. -/
def small (before : List Char) (c : Char) (after : List Char) : List Char :=
  if c.toNat < 128 then
    [if 'A' ≤ c && c ≤ 'Z' then Char.ofNat (c.toNat + 32) else c]
  else if c == 'Σ' then
    [if endsWord before after then 'ς' else 'σ']
  else if c == 'İ' then
    ['i', Char.ofNat 0x307]
  else
    match smallRuns.findSome? (·.shifted? c.toNat) with
    | some n => [Char.ofNat n]
    | none => [c]

/-- The small forms of a text whose reversed beginning is `before`. -/
def smallAfter (before : List Char) : List Char → List Char
  | [] => []
  | c :: rest => small before c rest ++ smallAfter (c :: before) rest

/-- A text in small letters. -/
def lower (s : String) : String :=
  String.ofList (smallAfter [] s.toList)

end PluginHelp.Text
