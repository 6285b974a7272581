/-
Items that come one after the other until something goes wrong.
-/
import PluginHelp.Fault

namespace PluginHelp

/-- Items up to the place where something went wrong, if it did. -/
structure Stream (α : Type) where
  items : List α
  fault : Option Fault
deriving Repr

namespace Stream

variable {α : Type}

/-- Further items in front. -/
def after (front : List α) (s : Stream α) : Stream α :=
  ⟨front ++ s.items, s.fault⟩

/-- No items, because something is wrong at once. -/
def failed (fault : Fault) : Stream α :=
  ⟨[], some fault⟩

/-- All items of a list, or the cause why there are none. -/
def ofExcept : Except Cause (List α) → Stream α
  | .ok items => ⟨items, none⟩
  | .error cause => failed { cause }

/-- One stream, and then another one if nothing went wrong. -/
def append (s t : Stream α) : Stream α :=
  match s.fault with
  | some _ => s
  | none => ⟨s.items ++ t.items, t.fault⟩

instance : Append (Stream α) := ⟨append⟩

/-- The streams of all items of a list, one after the other. -/
def concat {β : Type} (stream : β → Stream α) : List β → Stream α
  | [] => ⟨[], none⟩
  | b :: rest => stream b ++ concat stream rest

end Stream

end PluginHelp
