/-
Tags, links and inline directives of a help page.
-/
import PluginHelp.Page.Basic
import PluginHelp.Pattern.Markup
import PluginHelp.Text.Search

namespace PluginHelp.Help

/-- The word that belongs to a part of a page: the name of the page, a separator and the part. -/
def slug (page : Page) (part : Value) (separator : String := "-") : String :=
  page.name.shown ++ separator ++ part.shown

/-- The place that links lead to; nothing has none. -/
def tag : Value → String
  | .nothing => ""
  | word => "*" ++ word.shown ++ "*"

/-- A link. -/
def link (word : Value) : String :=
  "|" ++ word.shown ++ "|"

/-- The name of the help file of a page; a separator of namespaces becomes a dash. -/
def fileName (page : Page) : Except Cause String :=
  match page.name with
  | .text name => .ok (Text.replaceChar '#' '-' name ++ ".txt")
  | _ => .error .notText

/-- The function that an element means: one that begins with a number sign is in this namespace.
The element has to be a text. -/
def linkedFunction (space : Value) : (element : Value) → Except Cause Value
  | .text element =>
    match element.toList with
    | '#' :: rest =>
      Entry.joinValues (if space.isGiven then space else .text "") (.text (String.ofList rest))
    | _ => .ok (.text element)
  | _ => .error .notText

/-- What a page knows about its plugin under a name. -/
def pluginDetail (c : Context) : Value → Except Cause Value
  | .text "author" => .ok c.plugin.author
  | .text "stylized" | .nothing => .ok c.plugin.stylization
  | .text "name" => .ok c.page.name
  | other => .error (.unknownInline (other.shown ++ " attribute in plugin"))

/-- What an inline directive stands for; nothing leaves it as it is written. -/
def expandInline (c : Context) (inline : String) (element space : Value) : Except Cause Value := do
  match inline with
  | "section" => return .text (link (.text (slug c.page element)))
  | "function" =>
    let name ← linkedFunction space element
    return .text (link (← c.plugin.lookUpTag Kind.function.toValue name))
  | "command" => return .text (link (← c.plugin.lookUpTag Kind.command.toValue element))
  | "flag" =>
    let found ← c.plugin.lookUpTag Kind.flag.toValue element
    return .text (link (.text (slug c.page found ":")))
  | "setting" => return .text (link (← c.plugin.lookUpTag Kind.setting.toValue element))
  | "dict" =>
    let found ← c.plugin.lookUpTag Kind.dictionary.toValue element
    return .text (link (.text (slug c.page found ".")))
  | "plugin" => pluginDetail c element
  | _ => return .nothing

/-- What a stretch of a text stands for. -/
def expandPiece (c : Context) (space : Value) : Piece → Except Cause Value
  | .plain text => .ok (.text text)
  | .hit found => do
    match ← expandInline c (found.group 1) (.ofText? (found.group? 2)) space with
    | .nothing => return .text found.text
    | value => return value

/-- The text of a stretch that was expanded. -/
def expandedText : Value → Except Cause String
  | .text s => .ok s
  | _ => .error .wrongValue

/-- A text with its inline directives expanded.  All of them are looked up before any is put in. -/
def expand (c : Context) (space : Value) (text : String) : Except Cause String := do
  let values ← (Pattern.inlineDirective.pieces text).mapM (expandPiece c space)
  return String.join (← values.mapM expandedText)

/-- The sentence on an error that may be thrown. -/
def throwsText (c : Context) (space : Value) (error description : String) :
    Except Cause String := do
  return "Throws " ++ error ++ " " ++ (← expand c space description)

/-- The sentence on the value that an argument has by default. -/
def defaultText (c : Context) (space : Value) (argument value : String) :
    Except Cause String := do
  return "[" ++ argument ++ "] is " ++ (← expand c space value) ++ " if omitted."

end PluginHelp.Help
