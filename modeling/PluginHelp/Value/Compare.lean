/-
Comparing and joining values.

Two values are alike if they are the same one once every yes counts as one and every no as zero.
Values are in order only among numbers, among texts and among lists; a list is before another one if
the first items that differ are.
-/
import PluginHelp.Text.Search
import PluginHelp.Value.Basic

namespace PluginHelp.Value

/-! ### Likeness -/

mutual

/-- A value in which yes is one and no is zero. -/
def counted : Value → Value
  | flag yes => number (if yes then 1 else 0)
  | list items => list (countedItems items)
  | object fields => object (countedFields fields)
  | value => value

/-- Items in which yes is one and no is zero. -/
def countedItems : List Value → List Value
  | [] => []
  | item :: items => counted item :: countedItems items

/-- Fields in which yes is one and no is zero. -/
def countedFields : List (String × Value) → List (String × Value)
  | [] => []
  | (key, value) :: fields => (key, counted value) :: countedFields fields

end

/-- Values are compared by likeness. -/
instance : BEq Value where
  beq a b := decide (a.counted = b.counted)

theorem beq_iff {a b : Value} : (a == b) = true ↔ a.counted = b.counted :=
  decide_eq_true_iff

instance : EquivBEq Value where
  rfl := beq_iff.2 rfl
  symm h := beq_iff.2 (beq_iff.1 h).symm
  trans h k := beq_iff.2 ((beq_iff.1 h).trans (beq_iff.1 k))

/-! ### Order -/

mutual

/-- Whether a value is before another one; only values of one sort are in order. -/
def before? : Value → Value → Option Bool
  | text a, text b => some (decide (a < b))
  | list a, list b => itemsBefore? a b
  | number a, b => b.number?.map fun n => decide (a < n)
  | flag a, b => b.number?.map fun n => decide ((if a then 1 else 0) < n)
  | _, _ => none

/-- Whether items are before other ones. -/
def itemsBefore? : List Value → List Value → Option Bool
  | _, [] => some false
  | [], _ :: _ => some true
  | a :: as, b :: bs => if a == b then itemsBefore? as bs else before? a b

end

/-! ### Joining and searching -/

/-- Two values put together: texts and lists one after the other, numbers by their sum. -/
def plus? : Value → Value → Option Value
  | text a, text b => some (text (a ++ b))
  | list a, list b => some (list (a ++ b))
  | a, b =>
    match a.number?, b.number? with
    | some m, some n => some (number (m + n))
    | _, _ => none

/-- Whether a text occurs in a value: as a piece of a text, or as an item. -/
def holds? (piece : String) : Value → Option Bool
  | text s => some (Text.occursIn piece s)
  | value => value.items?.map fun items => items.contains (text piece)

end PluginHelp.Value
