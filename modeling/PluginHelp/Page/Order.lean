/-
The order of the sections of a page.

An explicit order is completed by the well-known sections that it leaves out.  Each of them goes
right after the well-known section before it, as long as there is one, and the last word belongs to
the section about the plugin itself.
-/
import PluginHelp.Fault

namespace PluginHelp.Page

/-- The well-known sections in their usual order. -/
def usualOrder : List String :=
  ["intro", "config", "commands", "autocmds", "settings", "dicts", "functions", "exceptions",
    "mappings"]

/-- The section about the plugin itself. -/
def lastSection : String :=
  "about"

/-- An order being completed, and the place where the next well-known section would go. -/
structure Ordering where
  order : List Value
  place : Nat

/-- Considers one well-known section: if it is ordered, later ones come after it; if it is only
there, it is put in. -/
def Ordering.consider (isSection : Value → Bool) (o : Ordering) (id : Value) : Ordering :=
  if o.order.contains id then
    { o with place := o.order.idxOf id + 1 }
  else if isSection id then
    ⟨o.order.insertIdx o.place id, o.place + 1⟩
  else
    o

/-- The order of the sections, completed from a list of them. -/
def completeList (explicit : List Value) (isSection : Value → Bool) : List Value :=
  let last := Value.text lastSection
  let order :=
    ((usualOrder.map Value.text).foldl (Ordering.consider isSection) ⟨explicit, 0⟩).order
  if isSection last && !order.contains last then order ++ [last] else order

/-- Whether a text names every well-known section that there is.  A text in place of an order cannot
be completed. -/
def isComplete (explicit : String) (isSection : Value → Bool) : Bool :=
  (usualOrder ++ [lastSection]).all fun id =>
    Text.occursIn id explicit || !isSection (.text id)

/-- The order of the sections, completed from an explicit one if there is one. -/
def completeOrder (explicit : Value) (isSection : Value → Bool) : Except Cause Value :=
  if explicit.isGiven then
    match explicit with
    | .list ids => .ok (.list (completeList ids isSection))
    | .text s => if isComplete s isSection then .ok explicit else .error .notList
    | _ => .error .wrongValue
  else
    .ok (.list (completeList [] isSection))

end PluginHelp.Page
