/-
Numbers with a point or an exponent.

Such a number is kept with fifty-three binary digits, rounded to the nearest number of that size, and
shown with the fewest decimal digits that lead back to it.  Of two that are as short, the nearer one
is taken.
-/
namespace PluginHelp

/-- The number `digits · 10 ^ exponent`. -/
structure Decimal where
  digits : Nat
  exponent : Int
deriving DecidableEq, Repr

/-- The number `digits · 2 ^ exponent`. -/
structure Binary where
  digits : Nat
  exponent : Int
deriving DecidableEq, Repr

/-- A numerator and a denominator. -/
structure Ratio where
  above : Nat
  below : Nat
deriving DecidableEq, Repr

namespace Ratio

/-- A ratio times a power. -/
def scale (r : Ratio) (base : Nat) (exponent : Int) : Ratio :=
  if exponent < 0 then ⟨r.above, r.below * base.pow exponent.natAbs⟩
  else ⟨r.above * base.pow exponent.natAbs, r.below⟩

/-- The whole numbers right below and right above a ratio, the nearer one first.  A tie is for the
even one. -/
def neighbours (r : Ratio) : Nat × Nat :=
  let whole := r.above / r.below
  let rest := 2 * (r.above % r.below)
  if rest < r.below || rest == r.below && whole % 2 == 0 then (whole, whole + 1)
  else (whole + 1, whole)

/-- The number of decimal digits before the point of a ratio; below a tenth, what is missing counts
as negative. -/
def magnitude (r : Ratio) : Int :=
  let length (n : Nat) : Int := (toString n).length
  if r.below ≤ r.above then length (r.above / r.below)
  else 1 - length ((r.below - 1) / r.above)

end Ratio

namespace Binary

/-- The value of a binary number. -/
def toRatio (b : Binary) : Ratio :=
  Ratio.scale ⟨b.digits, 1⟩ 2 b.exponent

/-- The smallest number that is too large for the digits of a binary number. -/
def tooMany : Nat :=
  Nat.pow 2 53

/-- The smallest exponent of a binary number. -/
def leastExponent : Int :=
  -1074

/-- The largest exponent of a binary number. -/
def largestExponent : Int :=
  971

/-- The exponent with which the digits nearest to a positive ratio are as many as they can be. -/
def exponentOf (r : Ratio) : Int :=
  let wanted : Int := (r.above.log2 : Int) - r.below.log2 - 53
  let exponent := if wanted < leastExponent then leastExponent else wanted
  let scaled := r.scale 2 (-exponent)
  if scaled.above / scaled.below < tooMany then exponent else exponent + 1

/-- The nearest binary number to a positive ratio, if it is not too large. -/
def nearest? (r : Ratio) : Option Binary :=
  let exponent := exponentOf r
  let digits := (r.scale 2 (-exponent)).neighbours.1
  let rounded : Binary :=
    if digits < tooMany then ⟨digits, exponent⟩ else ⟨digits / 2, exponent + 1⟩
  if rounded.exponent ≤ largestExponent then some rounded else none

end Binary

namespace Decimal

/-- The value of a decimal number. -/
def toRatio (d : Decimal) : Ratio :=
  Ratio.scale ⟨d.digits, 1⟩ 10 d.exponent

/-- Where the point stands, counted from the first digit. -/
def point (d : Decimal) : Int :=
  d.exponent + (toString d.digits).length

/-- The nearest binary number, if it is not too large.  Numbers far from one are not worked out. -/
def toBinary? (d : Decimal) : Option Binary :=
  if d.digits == 0 || d.point < -330 then some ⟨0, 0⟩
  else if 310 < d.point then none
  else Binary.nearest? d.toRatio

/-- The decimal number with a given number of digits that is nearest to a binary one among those
that lead back to it. -/
def ofBinary? (b : Binary) (count : Nat) : Option Decimal :=
  let exponent := b.toRatio.magnitude - count
  let near := (b.toRatio.scale 10 (-exponent)).neighbours
  [near.1, near.2].findSome? fun digits =>
    let d : Decimal := ⟨digits, exponent⟩
    if d.toBinary? == some b then some d else none

/-- The shortest decimal number that leads back to a binary one; seventeen digits are enough. -/
def shortest? (b : Binary) : Option Decimal :=
  (List.range 17).findSome? fun i => ofBinary? b (i + 1)

/-- Digits with a point among them. -/
def positional (digits : List Char) (point : Int) : List Char :=
  if point ≤ 0 then
    '0' :: '.' :: List.replicate point.natAbs '0' ++ digits
  else
    let whole := digits.take point.toNat
    let rest := digits.drop point.toNat
    whole ++ List.replicate (point.toNat - whole.length) '0'
      ++ '.' :: if rest.isEmpty then ['0'] else rest

/-- Digits with an exponent of at least two places. -/
def exponential (digits : List Char) (exponent : Int) : List Char :=
  let size := toString exponent.natAbs
  digits.take 1 ++ (if digits.length ≤ 1 then [] else '.' :: digits.drop 1)
    ++ 'e' :: (if exponent < 0 then '-' else '+')
    :: (if size.length < 2 then ['0'] else []) ++ size.toList

/-- A decimal number as it is shown: with an exponent if it has more than sixteen digits before the
point, or more than three zeros after it. -/
def shown (d : Decimal) : List Char :=
  let digits := ((toString d.digits).toList.reverse.dropWhile (· == '0')).reverse
  if -4 < d.point && d.point ≤ 16 then positional digits d.point
  else exponential digits (d.point - 1)

/-- What is shown of a number that is written with a point or an exponent. -/
def shownKept (d : Decimal) : List Char :=
  match d.toBinary? with
  | none => "inf".toList
  | some b => if b.digits == 0 then "0.0".toList else ((shortest? b).map shown).getD d.shown

end Decimal

end PluginHelp
