/-
Writing a help page: its head, its table of contents and its chunks.
-/
import PluginHelp.Help.Links
import PluginHelp.Help.Numbering
import PluginHelp.Help.Sheet
import PluginHelp.Page.Chunks
import PluginHelp.Text.Casing

namespace PluginHelp.Help

/-- The text of a control, where only a text will do. -/
def needText (value : Value) : Except Cause String :=
  match value with
  | .text s => .ok s
  | _ => .error .notText

/-! ### Passages -/

/-- A list item: a dash indents all lines but the first, a plus indents all, and any other leader is
kept and indented. -/
def itemLine (leader text : String) (indent : Int) : TextLine :=
  if leader == "-" then { text, indent, leader := some "" }
  else if leader == "+" then { text, indent, leader := some "  " }
  else { text, indent := indent + 1, leader := some (leader ++ " ") }

/-- Writes a passage. -/
def writePassage (c : Context) (space : Value) (indent : Int) (p : Passage) : Act Sheet Unit := do
  match p.body with
  | .item leader _ text =>
    writeText (itemLine leader (← Act.ofExcept (expand c space text)) indent)
  | .prose text => writeText { text := ← Act.ofExcept (expand c space text), indent }
  | .gap => writeText {}
  | .code lines =>
    writeText { text := ">" }
    Act.each lines fun line => do
      writeCode (← Act.ofExcept (expand c space line)) indent
    writeText { text := "<" }
  | .default argument value =>
    writeText { text := ← Act.ofExcept (defaultText c space argument value), indent }
  | .error error description =>
    writeText { text := ← Act.ofExcept (throwsText c space error description), indent }
  | .heading title => writeText { text := Text.upper title, indent }
  | .bare => Act.fail .shapelessPassage

/-- Writes the passages of an entry, and a gap after them. -/
def writePassages (c : Context) (indent : Int) (e : Entry) : Act Sheet Unit := do
  Act.assume (e.hasOwn "namespace") "Merged entries have a namespace."
  Act.each e.passages (writePassage c (e.ownD "namespace") indent)
  writeText {}

/-! ### Chunks -/

/-- Writes a section. -/
def writeSection (c : Context) (e : Entry) : Act Sheet Unit := do
  writeRow
  let title ← Act.ofExcept (e.needOwn "name")
  let id ← Act.ofExcept (e.needOwn "id")
  let title ← Act.ofExcept (needText title)
  writeText { text := Text.upper title, right := tag (.text (slug c.page id)) }
  if !e.passages.isEmpty then
    writeText {}
  writePassages c 0 e

/-- Writes an entry that begins with its usage. -/
def writeLarge (c : Context) (e : Entry) : Act Sheet Unit := do
  Act.assume (e.hasOwn "usage") "Functions and commands have a usage."
  let right := tag (← Act.ofExcept e.tagName)
  let usage ← Act.ofExcept (needText (e.ownD "usage"))
  writeText { text := usage, right, leader := some "" }
  writePassages c 1 e

/-- Writes an entry that begins with its tag only. -/
def writeSmall (c : Context) (word : Value) (e : Entry) : Act Sheet Unit := do
  writeText { right := tag word }
  writePassages c 0 e

/-- Writes an entry. -/
def writeChunk (c : Context) (e : Entry) : Act Sheet Unit := do
  Act.assume (e.hasOwn "type") "Entries have a kind."
  match e.kind? with
  | some .sect => writeSection c e
  | some .function =>
    if e.hasOwn "exception" then
      writeSmall c (← Act.ofExcept e.fullName) e
    else
      writeLarge c e
  | some .command => writeLarge c e
  | some .setting => writeSmall c (← Act.ofExcept e.fullName) e
  | some .flag => writeSmall c (.text (slug c.page (← Act.ofExcept e.fullName) ":")) e
  | some .dictionary => writeSmall c (.text (slug c.page (← Act.ofExcept e.fullName) ".")) e
  | some .backmatter => writePassages c 0 e
  | _ => pure ()

/-! ### The page -/

/-- Writes the head of a page: its file and the tagline, the author and the tags of the page. -/
def writeHead (c : Context) : Act Sheet Unit := do
  let first := tag (.text (← Act.ofExcept (fileName c.page)))
  let first :=
    if c.plugin.tagline.isGiven then first ++ "\t" ++ c.plugin.tagline.shown else first
  print first "\n" true
  let own := tag (.text c.page.name.shown)
  let right :=
    if c.plugin.stylization.isGiven then tag c.plugin.stylization ++ " " ++ own else own
  let text ←
    match c.plugin.author with
    | .text author => pure author
    | author => if author.isGiven then Act.fail .notText else pure ""
  writeText { text, right }
  writeText {}

/-- Writes one line of the table of contents. -/
def writeContentsLine (c : Context) (n : Nat) (e : Entry) : Act Sheet Unit :=
  writeText
    { text := toString n ++ ". " ++ (e.ownD "name").shown
      indent := 2 * (e.ownD "level").number?.getD 0 + 1
      right := link (.text (slug c.page (e.ownD "id")))
      filler := "." }

/-- Does a step for every item of a stream, and then fails as the stream does. -/
def eachOf {α : Type} (s : Stream α) (act : α → Act Sheet Unit) : Act Sheet Unit := do
  Act.each s.items act
  match s.fault with
  | some fault => Act.stop fault
  | none => pure ()

/-- Writes the table of contents. -/
def writeContents (c : Context) : Act Sheet Unit := do
  writeRow
  writeText { text := "CONTENTS", right := tag (.text (slug c.page (.text "contents"))) }
  eachOf (number (c.page.sections.map (·.2.entry))) fun (n, e) => writeContentsLine c n e
  writeText {}

/-- Writes the chunks of a page. -/
def writeChunks (c : Context) : Act Sheet Unit :=
  eachOf c.page.chunks (writeChunk c)

/-- Writes the end of a page, which tells the editor how to show it. -/
def writeFoot : Act Sheet Unit := do
  writeText {}
  writeText { text := "vim:tw=78:ts=8:ft=help:norl:" }

/-- Writes a whole page. -/
def writePage (c : Context) : Act Sheet Unit := do
  writeHead c
  writeContents c
  writeChunks c
  writeFoot

end PluginHelp.Help
