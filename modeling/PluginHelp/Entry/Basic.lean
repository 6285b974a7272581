/-
Entries: what one doc comment says about one thing.

An entry has controls of its own, such as its kind and its name, and controls that it passes on to
its page and plugin, such as the order of the sections.  A control of its own can be given only values
that are like the first one; a control that is passed on may be given only once.
-/
import PluginHelp.Passage
import PluginHelp.Table

namespace PluginHelp

/-- The kinds of things that are documented. -/
inductive Kind where
  | sect | backmatter | exception | dictionary | function | command | setting | flag
  | custom (label : String)
deriving DecidableEq, Repr

namespace Kind

/-- The name of a kind, as controls hold it. -/
def label : Kind → String
  | sect => "SECTION"
  | backmatter => "BACKMATTER"
  | exception => "EXCEPTION"
  | dictionary => "DICTIONARY"
  | function => "FUNCTION"
  | command => "COMMAND"
  | setting => "SETTING"
  | flag => "FLAG"
  | custom label => label

/-- The kind that a name means. -/
def ofLabel : String → Kind
  | "SECTION" => sect
  | "BACKMATTER" => backmatter
  | "EXCEPTION" => exception
  | "DICTIONARY" => dictionary
  | "FUNCTION" => function
  | "COMMAND" => command
  | "SETTING" => setting
  | "FLAG" => flag
  | label => custom label

/-- A kind as the value of a control. -/
def toValue (kind : Kind) : Value :=
  .text kind.label

end Kind

/-- The directives that begin a usage of their own. -/
inductive HeaderKind where
  | command | function | usage
deriving DecidableEq, Repr

/-- A header: how a usage is written, and the arguments it names. -/
structure Header where
  kind : HeaderKind
  usage : String
  required : List String
  optional : List String
deriving DecidableEq, Repr

/-- What one doc comment says about one thing. -/
structure Entry where
  /-- The controls of the entry itself. -/
  own : Table String Value := []
  /-- The controls that are passed on to the page and the plugin. -/
  shared : Table String Value := []
  header : Option Header := none
  passages : Passages := []
  /-- The required arguments that the text mentions. -/
  required : List String := []
  /-- The optional arguments that the text mentions. -/
  optional : List String := []
  isClosed : Bool := false
  /-- Whether an entry above it is about the same thing. -/
  isSecondary : Bool := false
  /-- Whether it gives way to any other entry about the same thing. -/
  isFallback : Bool := false
deriving DecidableEq, Repr, Inhabited

namespace Entry

/-- The value of a control of the entry. -/
def own? (e : Entry) (control : String) : Option Value :=
  e.own.get? control

/-- The value of a control of the entry, or nothing. -/
def ownD (e : Entry) (control : String) : Value :=
  (e.own? control).getD .nothing

/-- Whether the entry has a control of its own. -/
def hasOwn (e : Entry) (control : String) : Bool :=
  e.own.has control

/-- The value of a control that is needed. -/
def needOwn (e : Entry) (control : String) : Except Cause Value :=
  match e.own? control with
  | some value => .ok value
  | none => .error (.missing control)

/-- The control that holds the kind of the entry.  Yes means that it is documentation of a kind yet
to come. -/
def kindValue (e : Entry) : Value :=
  e.ownD "type"

/-- The kind of the entry, once it has one. -/
def kind? (e : Entry) : Option Kind :=
  e.kindValue.text?.map Kind.ofLabel

/-- Whether the entry is of a kind. -/
def isOf (e : Entry) (kind : Kind) : Bool :=
  e.kindValue == kind.toValue

/-- Gives a control a value, whatever it was before. -/
def putOwn (e : Entry) (control : String) (value : Value) : Entry :=
  { e with own := e.own.set control value }

/-! ### Setting controls -/

/-- Sets the kind.  Yes asks only that there be one some day; nothing and yes give way to any kind. -/
def setKind (wanted : Value) : Act Entry Unit := do
  let held := (← Act.get).kindValue
  if wanted.isYes || wanted == held then
    Act.modify (·.putOwn "type" (if held.isGiven then held else wanted))
  else if held.isNothing || held.isYes then
    Act.modify (·.putOwn "type" wanted)
  else
    Act.fail (.kindConflict held wanted)

/-- Sets a control of the entry, which makes it documentation.  A control that has a value takes only
one that is like it. -/
def setOwn (control : String) (value : Value) : Act Entry Unit := do
  setKind (.flag true)
  let held := ((← Act.get).own? control).getD value
  if held == value then
    Act.modify (·.putOwn control value)
  else
    Act.fail (.inconsistentControl control held value)

/-- Sets a control that is passed on, which makes the entry documentation. -/
def setShared (control : String) (value : Value) : Act Entry Unit := do
  setKind (.flag true)
  if (← Act.get).shared.has control then
    Act.fail (.redundantControl control)
  else
    Act.modify fun e => { e with shared := e.shared.set control value }

/-- Sets the parent of a section. -/
def setParent (parent : Value) : Act Entry Unit := do
  if (← Act.get).isOf .sect then
    setOwn "parent_id" parent
  else
    Act.fail (.misplacedParent parent)

/-- A new entry of the given kind. -/
def ofKind (kind : Kind) : Entry :=
  { own := [("type", kind.toValue)] }

end Entry

end PluginHelp
