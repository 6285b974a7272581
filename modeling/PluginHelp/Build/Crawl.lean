/-
The source files of a plugin.

Only the well-known folders of a plugin are looked into, at its top and below `after`.  The files of a
folder come before those of the folders in it, both in the order of their names.
-/
import PluginHelp.Files.Path
import PluginHelp.Files.Tree
import PluginHelp.Sorting
import PluginHelp.Source.Draft
import PluginHelp.Text.Lines

namespace PluginHelp.Build

/-- The folders of a plugin that hold documented code. -/
def codeFolders : List String :=
  ["plugin", "instant", "autoload", "syntax", "indent", "ftdetect", "ftplugin", "spell", "colors"]

/-- Whether a folder is looked into, given the way to the folder it is in. -/
def isCrawled (way : List String) (name : String) : Bool :=
  match way with
  | [] => name == "after" || codeFolders.contains name
  | ["after"] => codeFolders.contains name
  | _ => true

mutual

/-- The files of a folder that is reached by a way, and of the folders in it. -/
def filesBelow (way : List String) : Node → List (List String × Option String)
  | .file _ => []
  | .folder children =>
    let found := filesAmong way children
    (Sorting.sortByKey (·.1) found.1).map (fun (name, text) => (way ++ [name], text))
      ++ (Sorting.sortByKey (·.1) found.2).flatMap (·.2)

/-- The files among children, and what lies below each folder that is looked into. -/
def filesAmong (way : List String) : List (String × Node) →
    List (String × Option String) × List (String × List (List String × Option String))
  | [] => ([], [])
  | (name, .file text) :: rest =>
    let (files, folders) := filesAmong way rest
    ((name, text) :: files, folders)
  | (name, .folder children) :: rest =>
    let (files, folders) := filesAmong way rest
    if isCrawled way name then
      (files, (name, filesBelow (way ++ [name]) (.folder children)) :: folders)
    else
      (files, folders)

end

/-- The source files of a plugin with their paths inside it. -/
def sourceFiles (root : Node) : List (String × Option String) :=
  ((filesBelow [] root).map fun (way, text) => (Path.ofNames way, text)).filter fun (path, _) =>
    (Path.splitExtension path).2 == ".vim"

/-! ### Namespaces and pages of their own -/

/-- The namespace of the functions in an autoloaded file. -/
def autoloadSpace (path : String) : String :=
  Text.replaceChar '/' '#' (Path.stem path) ++ "#"

/-- The standalone file whose page a file belongs to: the file itself, or the first one that has a
folder of the same name around it. -/
def standaloneOf (standalones : List String) (path : String) : Option String :=
  standalones.find? fun s => path == s || Text.beginsWith (Path.stem s ++ "/") path

/-- The path inside the autoload folder, for a path that lies there. -/
def insideAutoload? (path : String) : Option String :=
  Text.dropHead? "autoload/" path

/-- The namespace of a file, if it has one. -/
def spaceOf (path : String) : Option String :=
  (insideAutoload? path).map autoloadSpace

/-! ### Flags that need no documentation -/

/-- Whether lines of code, comments apart, enter a plugin of the flag library. -/
def entersPlugin (lines : List String) : Except Fault Bool :=
  let logical := Source.logicalLines lines
  if logical.items.any fun (_, line) =>
      !Source.isComment line && Text.occursIn "maktaba#plugin#Enter(" line then
    .ok true
  else
    match logical.fault with
    | some fault => .error fault
    | none => .ok false

/-- Whether a file may have a flag that says whether it is loaded. -/
def mayHaveFlag (path : String) : Bool :=
  !Text.beginsWith "autoload/" path && path != "plugin/flags.vim" && path != "instant/flags.vim"

/-- The name of the flag that says whether a file is loaded. -/
def flagName (path : String) : String :=
  let path := (Text.dropHead? "after/" path).getD path
  match (Text.splitAt '/' (Path.stem path).toList).map String.ofList with
  | [] => ""
  | first :: rest => first ++ String.join (rest.map fun part => "[" ++ part ++ "]")

/-- The entry of the flag that says whether a file is loaded. -/
def loadFlag (path : String) : Outcome Entry Unit :=
  let name := flagName path
  let act : Act Entry Unit := do
    Entry.setOwn "name" (.text name)
    Entry.addLine ("Configures whether " ++ path ++ " should be loaded.")
    Entry.addLine (Draft.initialLine (if name == "plugin[mappings]" then "0" else "1"))
  act.run { Entry.ofKind .flag with isFallback := true }

/-! ### Reading -/

/-- A source file and its entries. -/
structure SourceFile where
  path : String
  entries : List Entry

/-- Reads a source file.  `name` is what messages call it. -/
def readSource {σ : Type} (name path : String) (text : Option String) : Act σ SourceFile := do
  match text with
  | none => Act.fail .notUtf8
  | some text =>
    let lines := Text.lines text
    let entries ← Act.within (fun _ => Source.entries (some name) lines) []
    let enters ←
      if mayHaveFlag path then
        match entersPlugin lines with
        | .ok enters => pure enters
        | .error fault => Act.stop fault
      else
        pure false
    if enters then
      return ⟨path, entries ++ [(loadFlag path).state]⟩
    else
      return ⟨path, entries⟩

/-- Whether a source file asks for a page of its own. -/
def isStandalone (f : SourceFile) : Bool :=
  Text.beginsWith "autoload" f.path
    && f.entries.head?.any fun e => ((e.shared.get? "standalone").getD .nothing).isGiven

end PluginHelp.Build
