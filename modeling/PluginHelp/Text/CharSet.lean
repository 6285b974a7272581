/-
Sets of characters given by where they begin and end.

A set is the ascending list of the code points at which membership changes: the first one opens a
run, the second one closes it, and so on.  A character belongs to the set when an odd number of
changes lies at or below it.
-/
namespace PluginHelp.Text

/-- A set of characters, as the ascending code points at which membership changes. -/
structure CharSet where
  changes : List Nat

/-- Membership: an odd number of changes lies at or below the character. -/
def CharSet.mem (s : CharSet) (c : Char) : Bool :=
  (s.changes.takeWhile (· ≤ c.toNat)).length % 2 == 1

end PluginHelp.Text
