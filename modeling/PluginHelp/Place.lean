/-
Places in a list, counted from either end.
-/
namespace PluginHelp

/-- The place that a number means in a list of `count` items: a negative number counts from the
end. -/
def place? (count : Nat) (number : Int) : Option Nat :=
  if 0 ≤ number then
    if number.toNat < count then some number.toNat else none
  else
    if number.natAbs ≤ count then some (count - number.natAbs) else none

end PluginHelp
