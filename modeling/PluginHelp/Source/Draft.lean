/-
The entries of a doc comment while it is being read.

A doc comment may describe several usages, each in an entry of its own.  The selection says which
entries the next line is meant for: the one of the last header, or all of them.  The line of code
after the comment closes every entry.
-/
import PluginHelp.Place
import PluginHelp.Source.Line

namespace PluginHelp

/-- The entries that are still open, those that lines are meant for, and those that are finished. -/
structure Draft where
  entries : List Entry := []
  /-- Places among the open entries; negative ones count from the end. -/
  selection : List Int := []
  finished : List Entry := []
deriving Repr

namespace Draft

/-- A step on the open entry at a place. -/
def onEntry {α : Type} (i : Nat) (act : Act Entry α) : Act Draft α :=
  fun d =>
    match d.entries[i]? with
    | none => Act.fail .noSuchPlace d
    | some e =>
      let after := act e
      ⟨{ d with entries := d.entries.set i after.state }, after.warnings, after.result⟩

/-- A step on every selected entry, in the order of the selection. -/
def onSelected (act : Act Entry Unit) : Act Draft Unit := do
  let selection := (← Act.get).selection
  Act.each selection fun number => do
    let count := (← Act.get).entries.length
    if number ≥ count then
      Act.fail (.noSuchEntry (.number number) count (.list (selection.map .number)))
    else
      match place? count number with
      | some i => onEntry i act
      | none => Act.fail .noSuchPlace

/-- Begins the first entry, unless there is one. -/
def begin : Act Draft Unit :=
  Act.modify fun d =>
    if d.entries.isEmpty then
      { d with entries := [{}], selection := d.selection ++ [0] }
    else
      d

/-- Selects every entry, all of which are then documentation. -/
def selectAll : Act Draft Unit := do
  Act.modify fun d => { d with selection := (List.range d.entries.length).map Int.ofNat }
  let count := (← Act.get).entries.length
  Act.each (List.range count) fun i => onEntry i (Entry.setKind (.flag true))

/-- The entry that a further header begins.  It takes over the controls of a first entry that has no
header. -/
def nextEntry (d : Draft) : Entry :=
  match d.entries.head? with
  | none => {}
  | some first => { own := if first.header.isNone then first.own else [], isSecondary := true }

/-- Whether a header begins a new entry: it does unless the only entry has no header yet. -/
def beginsEntry (d : Draft) : Bool :=
  d.entries.length != 1 || d.entries.head?.any (·.header.isSome)

/-- Begins the entry of a header: the only entry, if it has no header yet, or else a new one. -/
def addHeader (header : Header) : Act Draft Unit := do
  let d ← Act.get
  if d.beginsEntry then
    Act.modify fun d =>
      { d with entries := d.entries ++ [d.nextEntry], selection := [(d.entries.length : Int)] }
  else
    Act.assume (d.selection == [0]) "The only entry is selected."
  onSelected do
    Entry.setHeader header
    DocLine.update (.header header)

/-- Reads a line of documentation. -/
def addDoc : DocLine → Act Draft Unit
  | .all => selectAll
  | .header header => addHeader header
  | line => do
    begin
    onSelected line.update

/-- Finishes the entry at a place: it learns what the line of code says, and is closed. -/
def finish (line : CodeLine) (i : Nat) : Act Draft Unit := do
  onEntry i line.update
  let _ ← onEntry i Entry.close
  Act.modify fun d => { d with finished := d.finished ++ d.entries[i]?.toList }

/-- Leaves no entry open. -/
def clear : Act Draft Unit :=
  Act.modify fun d => { d with entries := [], selection := [] }

/-- Finishes every entry. -/
def finishAll (line : CodeLine) : Act Draft Unit := do
  let count := (← Act.get).entries.length
  Act.each (List.range count) (finish line)
  clear

/-- The text that shows the initial value of a flag, as a list item of its own. -/
def initialLine (initial : String) : String :=
  " - Default: " ++ initial ++ " `"

/-- Adds the initial value of a flag to the last entry, which is begun if there is none. -/
def addInitial (initial : String) : Act Draft Unit := do
  Act.modify fun d => if d.entries.isEmpty then { d with entries := [{}] } else d
  onEntry ((← Act.get).entries.length - 1) (Entry.addLine (initialLine initial))

/-- Reads a line of code.  Documentation above a line that defines nothing known is dropped. -/
def addCode : CodeLine → Act Draft Unit
  | .unrecognized _ => clear
  | .flag name (some initial) => do
    addInitial initial
    finishAll (.flag name (some initial))
  | line => finishAll line

/-- Reads a line. -/
def add : SourceLine → Act Draft Unit
  | .code line => addCode line
  | .doc line => addDoc line

/-! ### Reading a file -/

/-- Reads lines and then the end of the file, or the fault that stands in its place.  A fault belongs
to the last line that was read, `last`. -/
def addAll (file : Option String) (fault : Option Fault) (last : Nat) :
    List (Nat × SourceLine) → Act Draft Unit
  | [] =>
    Act.located file (last + 1) <|
      match fault with
      | some fault => Act.stop fault
      | none => addCode .endOfFile
  | (number, line) :: lines => do
    Act.located file (number + 1) (add line)
    addAll file fault number lines

end Draft

/-- Reads the entries of a file, which may have no name. -/
def Source.entries (file : Option String) (lines : List String) : Outcome (List Entry) Unit :=
  let read := SourceLine.ofFile lines
  let after := (Draft.addAll file read.fault 0 read.items).run {}
  ⟨after.state.finished, after.warnings, after.result⟩

end PluginHelp
