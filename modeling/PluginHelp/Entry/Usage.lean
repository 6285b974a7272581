/-
Usage lines, and closing an entry.

A header gives the shape of a usage line; its holes are filled with the name of what is documented
and with the arguments that the header does not name itself.  A function takes its required
arguments from its signature unless the documentation renames them, and its optional ones from the
documentation.
-/
import PluginHelp.Entry.Naming
import PluginHelp.Entry.Lines
import PluginHelp.Text.Search

namespace PluginHelp

namespace Header

/-- A header of some kind, with the arguments that its usage names. -/
def ofUsage (kind : HeaderKind) (usage : String) : Header where
  kind := kind
  usage := usage
  required := Pattern.requiredArgument.findTexts usage
  optional := Pattern.optionalArgument.findTexts usage

/-- A text in brackets. -/
def enclosed (opening closing : Char) (text : String) : String :=
  String.singleton opening ++ text ++ String.singleton closing

/-- The hole for all arguments. -/
def allHole : String :=
  enclosed '{' ']' ""

/-- A required argument as usage lines show it. -/
def showRequired (argument : String) : String :=
  enclosed '{' '}' argument

/-- An optional argument as usage lines show it. -/
def showOptional (argument : String) : String :=
  enclosed '[' ']' argument

/-- An argument of a usage line in its brackets; a bare one is required. -/
def normalSlot (slot : String) : String :=
  match slot.toList.head? with
  | some '[' | some '{' => slot
  | _ => showRequired slot

/-- Writes out the holes in such brackets that are meant as text. -/
def unescapeHoles (opening closing : Char) (usage : String) : String :=
  (Pattern.escapedHole opening closing).replaceWith
    (fun m => enclosed opening closing (m.group 1)) usage

/-- The usage line with its holes filled.  The name and the arguments are put in as they are: none
that is read has a backslash, with which another character would be meant. -/
def fillHoles (usage name separator required optional : String) : String :=
  let all :=
    if required != "" && optional != "" then required ++ separator ++ optional
    else required ++ optional
  let usage := Pattern.argumentsHole.replace all usage
  let usage := Pattern.requiredHole.replace required usage
  let usage := Pattern.optionalHole.replace optional usage
  let usage := Pattern.emptySeparator.replace "" usage
  let usage := Pattern.nameHole.replace name usage
  unescapeHoles '[' ']' (unescapeHoles '{' '}' (unescapeHoles '<' '>' usage))

end Header

namespace Entry

/-! ### The arguments of what is documented -/

/-- The sign for further parameters. -/
def furtherParameters : String :=
  "..."

/-- The named parameters of a function's signature. -/
def namedParameters (e : Entry) : Except Cause (List Value) :=
  match (e.ownD "args").items? with
  | some parameters => .ok (parameters.filter (· != .text furtherParameters))
  | none => .error .wrongValue

/-- Whether a function's signature has room for further parameters. -/
def takesMore (e : Entry) : Except Cause Bool :=
  match (e.ownD "args").holds? furtherParameters with
  | some holds => .ok holds
  | none => .error .wrongValue

/-- The required arguments: the parameters of a function, unless the text renames them.  To look for
the arguments among the parameters, these have to be possible keys. -/
def requiredArguments : Act Entry (List Value) := do
  let e ← Act.get
  let mentioned := e.required.map Value.text
  if e.isOf .function then
    let parameters ← Act.ofExcept e.namedParameters
    if e.required.isEmpty then
      return parameters
    if !parameters.all (·.isKey) then
      Act.fail .wrongValue
    if mentioned.all parameters.contains then
      return parameters
    if e.required.length != parameters.length then
      Act.warn (.argumentMismatch parameters e.required)
    return mentioned
  else
    return mentioned

/-- The optional arguments: those that the text mentions, if a function has room for them. -/
def optionalArguments : Act Entry (List String) := do
  let e ← Act.get
  if e.isOf .function && !e.optional.isEmpty then
    if ← Act.ofExcept e.takesMore then
      return e.optional
    else
      let name ← Act.ofExcept e.fullName
      Act.warn (.unacceptedOptionals name.shown)
      return []
  else
    return e.optional

/-! ### The usage line -/

/-- Sets the header, which closes the last passage. -/
def setHeader (header : Header) : Act Entry Unit := do
  if (← Act.get).header.isSome then
    Act.fail .secondHeader
  else
    Act.modify fun e => { e with header := some header }
    closePassage

/-- Lays out the arguments of a plain usage header for what the entry is about: in parentheses after
the name of a function, or in a row after the head of a command. -/
def layOut (header : Header) : Act Entry Header := do
  let e ← Act.get
  let slots := (Pattern.usageSlot.findTexts header.usage).map Header.normalSlot
  let usage ←
    if e.isOf .function then
      pure ("<>(" ++ ", ".intercalate slots ++ ")")
    else do
      Act.assume (e.isOf .command) "A usage is of a function or a command."
      let head := (e.own? "head").getD (.text "<>")
      pure (":" ++ head.shown ++ " " ++ " ".intercalate slots)
  let header := { header with usage }
  Act.modify ({ · with header := some header })
  return header

/-- The usage line that a header makes. -/
def usageOf (header : Header) : Act Entry String := do
  let header ← if header.kind == .usage then layOut header else pure header
  let e ← Act.get
  let separator := if e.isOf .function then ", " else " "
  let required ← requiredArguments
  let optional ← optionalArguments
  let name ← Act.ofExcept e.fullName
  match name with
  | .text name =>
    let usage := Header.fillHoles header.usage name separator
      (separator.intercalate
        ((required.filter (!(header.required.map Value.text).contains ·)).map
          fun argument => Header.showRequired argument.shown))
      (separator.intercalate
        ((optional.filter (!header.optional.contains ·)).map Header.showOptional))
    return if e.isOf .command && !Text.beginsWith ":" usage then ":" ++ usage else usage
  | _ => Act.fail .wrongValue

/-- The header of an entry that was given none: a hole for all arguments. -/
def plainHeader : Header :=
  .ofUsage .usage Header.allHole

/-- Works out the usage of a function or a command that is not an exception. -/
def settleUsage : Act Entry Unit := do
  let e ← Act.get
  if (e.isOf .function || e.isOf .command) && !e.hasOwn "exception" then
    if e.header.isNone then
      Act.modify ({ · with header := some plainHeader })
    let usage ← usageOf (e.header.getD plainHeader)
    Act.modify (·.putOwn "usage" (.text usage))

/-- Closes an entry and says whether it was still open.  An entry about a dictionary and of no other
kind gets that kind, usages are worked out, and only functions may be private. -/
def close : Act Entry Bool := do
  if (← Act.get).isClosed then
    return false
  Act.modify ({ · with isClosed := true })
  let e ← Act.get
  if e.kindValue.isYes && e.hasOwn "dict" then
    setKind Kind.dictionary.toValue
  settleUsage
  let e ← Act.get
  if e.hasOwn "private" && !e.isOf .function then
    Act.fail (.invalidEntry "Only functions may be marked as private.")
  return true

end Entry

end PluginHelp
