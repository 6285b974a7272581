/-
The chunks of a page: its entries in the order in which they are written.

Each section is followed by the entries of the kinds that belong to it, and by its backmatter.
-/
import PluginHelp.Page.Basic
import PluginHelp.Stream

namespace PluginHelp.Page

/-- The collected entries of a kind, as chunks. -/
def collected (p : Page) (kind : Kind) : Stream Entry :=
  .ofExcept (p.collection kind.toValue)

/-- The functions that are neither members of a dictionary nor exceptions. -/
def plainFunctions (p : Page) : Stream Entry :=
  .ofExcept ((p.collection Kind.function.toValue).map
    (·.filter fun e => !e.hasOwn "dict" && !e.hasOwn "exception"))

/-- The functions that are members of the dictionary that an entry is about. -/
def members (p : Page) (dictionary : Entry) : Except Cause (List Entry) := do
  let functions ← p.collection Kind.function.toValue
  if functions.isEmpty then
    return []
  let name ← dictionary.needOwn "dict"
  return functions.filter fun e => e.ownD "dict" == name

/-- The dictionaries, each followed by its members. -/
def dictionaries (p : Page) : Stream Entry :=
  match p.collection Kind.dictionary.toValue with
  | .error cause => .failed { cause }
  | .ok entries => .concat (fun e => ⟨[e], none⟩ ++ .ofExcept (p.members e)) entries

/-- The entries that belong to a section. -/
def sectionEntries (p : Page) (id : Value) : Stream Entry :=
  match id with
  | .text "functions" => p.plainFunctions
  | .text "commands" => p.collected .command
  | .text "dicts" => p.dictionaries
  | .text "exceptions" => p.collected .exception
  | .text "config" => p.collected .flag ++ p.collected .setting
  | _ => ⟨[], none⟩

/-- The chunks of a page. -/
def chunks (p : Page) : Stream Entry :=
  .concat (fun (id, s) =>
    ⟨[s.entry], none⟩ ++ p.sectionEntries id ++ ⟨(p.backmatters.get? id).toList, none⟩) p.sections

end PluginHelp.Page
