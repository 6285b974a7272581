/-
Lines of documentation, and the passages they make.

Outside code, an empty line makes a gap, a bullet or a number begins a list item, an indented line
goes on with the item, and all else is running text.  A `>` at the end of a line opens a code
passage; in it, indented and empty lines are kept as they are, and anything else ends it, a `<`
being dropped.
-/
import PluginHelp.Entry.Basic
import PluginHelp.Pattern.Usage
import PluginHelp.Pattern.Markup

namespace PluginHelp.Entry

open PluginHelp.Text

/-- The items in order of first mention, each once. -/
def firstMentions (items : List String) : List String :=
  items.foldl (fun seen item => if seen.contains item then seen else seen ++ [item]) []

/-- Notes the arguments that a text mentions. -/
def noteArguments (text : String) : Act Entry Unit :=
  Act.modify fun e =>
    { e with
      required := firstMentions (e.required ++ Pattern.requiredArgument.findTexts text)
      optional := firstMentions (e.optional ++ Pattern.optionalArgument.findTexts text) }

/-- Begins a passage. -/
def beginPassage (body : Body) : Act Entry Unit :=
  Act.modify fun e => { e with passages := e.passages.begin body }

/-- Closes the last passage. -/
def closePassage : Act Entry Unit :=
  Act.modify fun e => { e with passages := e.passages.close }

/-- Adds a line to the last passage. -/
def extendPassage (line : String) : Act Entry Unit := do
  let e ← Act.get
  let passages ← Act.ofExcept (e.passages.addLine line)
  Act.modify ({ · with passages })

/-- Whether a line begins with a space or a tab. -/
def isIndented (line : String) : Bool :=
  line.toList.head?.any fun c => c == ' ' || c == '\t'

/-- Adds a line of running text; a `>` at its end opens a code passage. -/
def addProse (line : String) : Act Entry Unit := do
  beginPassage (.prose "")
  if line == ">" || [' ', '>'].isSuffixOf line.toList then
    let text := trimEnd (String.ofList line.toList.dropLast)
    if text != "" then
      extendPassage text
    beginPassage (.code [])
  else
    extendPassage line

/-- Adds a line where no code passage is open. -/
def addUncoded (line : String) : Act Entry Unit := do
  noteArguments line
  if isBlankText line then
    beginPassage .gap
  else
    match Pattern.listItem.match? line with
    | some found =>
      closePassage
      beginPassage (.item (found.group 1) 0 "")
      extendPassage (Pattern.listItem.replace "" line)
    | none =>
      let inItem := (← Act.get).passages.growing .item
      if isIndented line && inItem then
        extendPassage (trimStart line)
      else
        if inItem then
          closePassage
        addProse line

/-- Adds a line of documentation. -/
def addLine (line : String) : Act Entry Unit := do
  if (← Act.get).passages.growing .code then
    match line.toList with
    | '<' :: rest =>
      closePassage
      let text := trimStart (String.ofList rest)
      if text != "" then
        addUncoded text
    | _ =>
      if line == "" || isIndented line then
        extendPassage line
      else
        closePassage
        addUncoded line
  else
    addUncoded line

/-! ### Passages that a directive makes -/

/-- Adds a heading. -/
def addHeading (title : String) : Act Entry Unit :=
  beginPassage (.heading title)

/-- Adds the value that an argument has by default.  The arguments that the value mentions come
before the argument itself, which is optional. -/
def addDefault (argument value : String) : Act Entry Unit := do
  noteArguments value
  Act.modify fun e =>
    { e with
      optional := if e.optional.contains argument then e.optional else e.optional ++ [argument] }
  beginPassage (.default argument value)

/-- Adds an error that may be thrown. -/
def addError (error : String) (description : Option String) : Act Entry Unit := do
  noteArguments (description.getD "")
  beginPassage (.error error (description.getD ""))

end PluginHelp.Entry
