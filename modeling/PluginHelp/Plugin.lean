/-
Plugins: what all help pages of a plugin share.

A plugin collects the documented entries of all its pages by kind, so that links can be resolved
across pages.  Which functions are documented depends on whether the plugin is a library.
-/
import PluginHelp.Entry.Naming
import PluginHelp.Pattern.Argument

namespace PluginHelp

/-- Documented entries by kind. -/
abbrev Collections := Table Value (List Entry)

namespace Collections

/-- The entries of a kind.  Only what may be a key can be looked up. -/
def entries (collections : Collections) (kind : Value) : Except Cause (List Entry) :=
  if kind.isKey then .ok ((collections.get? kind).getD []) else .error .wrongValue

/-- Adds an entry of a kind; nothing is no kind, and the entry is left out. -/
def add (collections : Collections) (kind : Value) (e : Entry) : Except Cause Collections := do
  if kind.isNothing then
    return collections
  return collections.set kind ((← collections.entries kind) ++ [e])

end Collections

/-- What all help pages of a plugin share. -/
structure Plugin where
  name : Value
  author : Value := .nothing
  tagline : Value := .nothing
  stylization : Value := .nothing
  library : Value := .nothing
  collections : Collections := []

namespace Plugin

/-- The kind under which an entry is collected, or nothing.  Deprecated functions are left out, and
so are the private ones of a library and those of other plugins that are not marked as public. -/
def collectionKind (p : Plugin) (e : Entry) : Value :=
  if e.isOf .function then
    if (e.ownD "deprecated").isGiven then .nothing
    else if p.library.isGiven && (e.ownD "private").isGiven then .nothing
    else if !p.library.isGiven && ((e.own? "private").getD (.flag true)).isGiven then .nothing
    else if e.hasOwn "exception" then Kind.exception.toValue
    else e.kindValue
  else
    e.kindValue

/-- Takes over a control that an entry passes on; it may be given only once. -/
def takeOver (control : String) (held : Plugin → Value) (put : Value → Plugin → Plugin)
    (e : Entry) : Act Plugin Unit := do
  match e.shared.get? control with
  | none => pure ()
  | some value =>
    if (held (← Act.get)).isNothing then
      Act.modify (put value)
    else
      Act.fail (.redundantControl control)

/-- Takes over what a section or a backmatter says about the plugin. -/
def consume (e : Entry) : Act Plugin Unit := do
  Act.assume (e.isOf .sect || e.isOf .backmatter) "Only sections speak about the plugin."
  if e.shared.has "author" then
    Act.fail (.invalidEntry
      "Invalid directive @author. Specify author field in addon-info.json instead.")
  if e.shared.has "tagline" then
    Act.fail (.invalidEntry
      "Invalid directive @tagline. Specify description field in addon-info.json instead.")
  takeOver "stylization" (·.stylization) (fun value p => { p with stylization := value }) e
  takeOver "library" (·.library) (fun value p => { p with library := value }) e

/-- Adds an entry to what the plugin knows. -/
def add (e : Entry) : Act Plugin Unit := do
  if e.isOf .sect || e.isOf .backmatter then
    consume e
  else
    let p ← Act.get
    let collections ← Act.ofExcept (p.collections.add (p.collectionKind e) e)
    Act.modify ({ · with collections })

/-! ### Links -/

/-- The full name that a link means: a command without its colon, a setting with its scope.  Only
these two need a text to begin with. -/
def linkedName (kind : Value) (name : Value) : Except Cause Value :=
  if kind == Kind.command.toValue then
    match name with
    | .text name => .ok (.text (String.ofList (name.toList.dropWhile (· == ':'))))
    | _ => .error .notText
  else if kind == Kind.setting.toValue then
    match name with
    | .text name => .ok (.text (if Pattern.settingScope.fits name then name else "g:" ++ name))
    | _ => .error .wrongValue
  else
    .ok name

/-- The entries of a list that have a full name.  Every entry must have one. -/
def named (name : Value) : List Entry → Except Cause (List Entry)
  | [] => .ok []
  | e :: rest => do
    let held ← e.fullName
    let others ← named name rest
    return if held == name then e :: others else others

/-- The tag of what a link means: that of the only collected entry of that name, or the one that an
entry of that name would have. -/
def lookUpTag (p : Plugin) (kind : Value) (name : Value) : Except Cause Value := do
  let full ← linkedName kind name
  match ← named full (← p.collections.entries kind) with
  | [e] => e.tagName
  | [] => Entry.tagName { own := [("type", kind), ("name", full)] }
  | _ => .error (.missing ("Found multiple " ++ kind.shown ++ "s named " ++ name.shown))

end Plugin

end PluginHelp
