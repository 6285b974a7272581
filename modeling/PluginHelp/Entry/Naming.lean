/-
The names of what an entry is about.

The full name of a function is made of its dictionary or its namespace; a name may be nothing, which
is shown as such.  The tag is the word that links lead to, and only the first of several entries
about one thing has one.
-/
import PluginHelp.Entry.Basic

namespace PluginHelp.Entry

/-- Two values put together, where they can be. -/
def joinValues (a b : Value) : Except Cause Value :=
  match a.plus? b with
  | some joined => .ok joined
  | none => .error .wrongValue

/-- The name inside its file. -/
def localName (e : Entry) : Except Cause Value :=
  if e.isOf .dictionary then
    e.needOwn "dict"
  else
    match e.own? "name" with
    | some name => .ok name
    | none => .error (.missing "Unnamed block.")

/-- The name with its dictionary or its namespace. -/
def fullName (e : Entry) : Except Cause Value := do
  if e.isOf .function then
    match e.own? "dict" with
    | some dictionary =>
      let name ← e.localName
      let member := (e.own? "attribute").getD name
      return .text (dictionary.shown ++ "." ++ member.shown)
    | none =>
      match e.own? "exception" with
      | some exception =>
        let name ← if exception.isGiven then pure exception else e.localName
        return .text ("ERROR(" ++ name.shown ++ ")")
      | none =>
        let name ← e.localName
        joinValues ((e.own? "namespace").getD (.text "")) name
  else
    e.localName

/-- The word that links lead to; nothing for an entry that is not the first about its thing. -/
def tagName (e : Entry) : Except Cause Value := do
  if e.isSecondary then
    return .nothing
  else if e.isOf .function && !e.hasOwn "exception" then
    return .text ((← e.fullName).shown ++ "()")
  else if e.isOf .command then
    return .text (":" ++ (← e.fullName).shown)
  else
    e.fullName

/-- The entry as a debugging aid shows it: an entry without a name has a question mark. -/
def shown (e : Entry) : Except Cause String :=
  match e.fullName with
  | .ok name => .ok ("Block(" ++ name.shown ++ ")")
  | .error (.missing _) => .ok "Block(?)"
  | .error cause => .error cause

/-- Whether a value comes before another one, where they can be compared. -/
def valueBefore (a b : Value) : Except Cause Bool :=
  match a.before? b with
  | some isBefore => .ok isBefore
  | none => .error .wrongValue

/-- Whether one entry's full name comes before another's. -/
def isBefore (e other : Entry) : Except Cause Bool := do
  valueBefore (← e.fullName) (← other.fullName)

end PluginHelp.Entry
