/-
Building the help pages of a plugin.

The files of a plugin go into its main page, except for those that belong to a standalone file, which
has a page of its own.  The pages are then closed and written one after the other.
-/
import PluginHelp.Build.Crawl
import PluginHelp.Files.Disk
import PluginHelp.Help.Write
import PluginHelp.Page.Book
import PluginHelp.Value.Reader

namespace PluginHelp.Build

/-- The files, and what has been done so far. -/
structure Desk where
  disk : Disk
  /-- The pages that were reached, with the names of their files. -/
  reached : List (String × String) := []
  /-- The files that were written, by the way to them. -/
  written : Table (List String) String := []

/-- Makes a folder, unless it is there. -/
def makeFolder (path : String) : Act Desk Unit := do
  let disk ← Act.ofExcept ((← Act.get).disk.makeFolder path)
  Act.modify ({ · with disk })

/-- The description of the plugin in a folder; one that is malformed is passed over. -/
def readInfo (folder : String) : Act Desk Value := do
  match (← Act.get).disk.file? (Path.join folder "addon-info.json") with
  | none => return .object []
  | some text =>
    match text.elim (.error .malformed) fun text => Value.read (String.join (Text.lines text)) with
    | .ok info => return if info.isGiven then info else .object []
    | .error .malformed =>
      Act.warn .badAddonInfo
      return .object []
    | .error .tooDeep => Act.fail .tooDeep

/-- The plugin that a description describes. -/
def pluginOf (info : Value) (folderName : String) : Except Cause Plugin :=
  match info with
  | .object _ =>
    .ok
      { name := (info.field? "name").getD (.text folderName)
        author := (info.field? "author").getD .nothing
        tagline := (info.field? "description").getD .nothing }
  | _ => .error .notObject

/-- Reads all source files in a folder. -/
def readSources (folder : String) : List (String × Option String) → Act Desk (List SourceFile)
  | [] => pure []
  | (path, text) :: rest => do
    let file ← readSource (Path.join folder path) path text
    let files ← readSources folder rest
    return file :: files

/-! ### Merging -/

/-- Merges the files that belong to no standalone file into the main page. -/
def mergeMain (standalones : List String) (files : List SourceFile) : Act Book Unit :=
  Act.each (files.filter fun f => (standaloneOf standalones f.path).isNone) fun f =>
    Book.mergeAll 0 (.ofText? (spaceOf f.path)) f.entries

/-- A namespace without the signs at its end. -/
def pageName (space : String) : String :=
  String.ofList (Text.dropEndWhile (· == '#') space.toList)

/-- Merges the files that belong to standalone files into their pages.  `begun` holds the places of
the pages that were begun. -/
def mergeStandalone (standalones : List String) (begun : Table String Nat) :
    List SourceFile → Act Book Unit
  | [] => pure ()
  | f :: rest =>
    match standaloneOf standalones f.path with
    | none => mergeStandalone standalones begun rest
    | some standalone =>
      match spaceOf f.path with
      | none => Act.fail (.assumption "Standalone files are autoloaded.")
      | some space =>
        match begun.get? standalone with
        | some i => do
          Book.mergeAll i (.text space) f.entries
          mergeStandalone standalones begun rest
        | none => do
          let i := (← Act.get).pages.length
          Book.addPage (.text (pageName space))
          Book.mergeAll i (.text space) f.entries
          mergeStandalone standalones (begun.set standalone i) rest

/-- Merges all files of a plugin into its pages. -/
def mergeFiles (files : List SourceFile) : Act Book Unit := do
  let standalones := (files.filter isStandalone).map (·.path)
  Book.addPage (← Act.get).plugin.name
  mergeMain standalones files
  mergeStandalone standalones [] files

/-! ### Writing -/

/-- Writes a page into a folder.  What was written before a fault stays. -/
def writePage (folder : String) (c : Context) : Act Desk Unit := do
  let file ← Act.ofExcept (Help.fileName c.page)
  Act.modify fun d => { d with reached := d.reached ++ [(c.page.name.shown, file)] }
  let outcome := Help.writePage c {}
  let (way, disk) ← Act.ofExcept
    ((← Act.get).disk.writeFile (Path.join folder file) outcome.state.written)
  Act.modify fun d => { d with disk, written := d.written.set way outcome.state.written }
  match outcome.result with
  | .ok _ => pure ()
  | .error fault => Act.stop fault

/-- Closes and writes the page at a place. -/
def finishPage (folder : String) (b : Book) (i : Nat) : Act Desk Book := do
  let b ← Act.within (Book.onPage i Page.close) b
  match b.pages[i]? with
  | some page => writePage folder ⟨b.plugin, page⟩
  | none => pure ()
  return b

/-- Closes and writes all pages from a place on. -/
def finishPages (folder : String) (b : Book) : List Nat → Act Desk Unit
  | [] => pure ()
  | i :: rest => do
    let b ← finishPage folder b i
    finishPages folder b rest

/-- Builds the help pages of the plugin in a folder, and writes them into another one. -/
def build (folder docFolder : String) : Act Desk Unit := do
  let folder := Path.withoutEndSlashes folder
  let disk := (← Act.get).disk
  let info ← readInfo folder
  let folderName := (Path.walk disk.place folder).getLast?.getD ""
  let plugin ← Act.ofExcept (pluginOf info folderName)
  let files ← readSources folder (sourceFiles ((disk.node? folder).getD (.folder [])))
  makeFolder (Path.join folder "doc")
  let book ← Act.within (mergeFiles files) { plugin }
  finishPages docFolder book (List.range book.pages.length)

/-- The files that were written and are not what they were. -/
def changes (before : Disk) (after : Desk) : Table (List String) String :=
  after.written.filter fun (way, text) => before.root.file? way != some (some text)

end PluginHelp.Build
