/-
Sorting by insertion, keeping the order of items of which none is before the other.

Not all items can be compared with each other.  Items are inserted one after the other, each being
compared first with the last of those before it, and a comparison that fails ends the sorting.
-/
namespace PluginHelp.Sorting

variable {α ε : Type}

/-- Puts an item into a list that is sorted backwards: behind all items that it is before. -/
def insertBackwards (isBefore : α → α → Except ε Bool) (a : α) : List α → Except ε (List α)
  | [] => .ok [a]
  | b :: rest => do
    if ← isBefore a b then
      return b :: (← insertBackwards isBefore a rest)
    else
      return a :: b :: rest

/-- The items in order. -/
def sort (isBefore : α → α → Except ε Bool) (items : List α) : Except ε (List α) := do
  return (← items.foldlM (fun sorted a => insertBackwards isBefore a sorted) []).reverse

/-- Puts an item before the first one whose key is not smaller. -/
def insertByKey (key : α → String) (a : α) : List α → List α
  | [] => [a]
  | b :: rest => if key b < key a then b :: insertByKey key a rest else a :: b :: rest

/-- The items in the order of their keys; items with equal keys stay in order. -/
def sortByKey (key : α → String) : List α → List α
  | [] => []
  | a :: rest => insertByKey key a (sortByKey key rest)

end PluginHelp.Sorting
