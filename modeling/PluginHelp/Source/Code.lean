/-
Lines of code, as far as they say what the documentation above them is about.
-/
import PluginHelp.Entry.Lines
import PluginHelp.Pattern.Comment
import PluginHelp.Pattern.Definition
import PluginHelp.Text.Search

namespace PluginHelp

/-- The attributes of a command that its usage shows. -/
structure CommandFlags where
  bang : Bool
  range : Bool
  count : Bool
  register : Bool
  buffer : Bool
  bar : Bool
deriving DecidableEq, Repr

/-- A line of code. -/
inductive CodeLine where
  | blank
  | endOfFile
  | unrecognized (line : String)
  | function (name : String) (space : Option String) (parameters : List String)
  | command (name : String) (flags : CommandFlags)
  | setting (name : String)
  | flag (name : Option String) (initial : Option String)
deriving DecidableEq, Repr

namespace CommandFlags

/-- The attributes that a command line lists. -/
def ofAttributes (attributes : String) : CommandFlags where
  bang := Text.occursIn "-bang" attributes
  range := Text.occursIn "-range" attributes
  count := Text.occursIn "-count" attributes
  register := Text.occursIn "-register" attributes
  buffer := Text.occursIn "-buffer" attributes
  bar := Text.occursIn "-bar" attributes

/-- The head of a command's usage: what may stand around its name. -/
def head (f : CommandFlags) : String :=
  (if f.range then "[range]" else "")
    ++ (if f.count then "[count]" else "")
    ++ (if f.register then "[\"x]" else "")
    ++ (if f.buffer then "[N]" else "")
    ++ "<>"
    ++ (if f.bang then "[!]" else "")

end CommandFlags

namespace CodeLine

/-- Reads a line of code. -/
def read (line : String) : CodeLine :=
  if Pattern.blankLine.fits line then
    blank
  else
    match Pattern.functionLine.match? line with
    | some m => function (m.group 2) (m.group? 1) (Pattern.parameter.findTexts (m.group 3))
    | none =>
      match Pattern.commandLine.match? line with
      | some m => command (m.group 2) (.ofAttributes (m.group 1))
      | none =>
        match Pattern.settingLine.match? line with
        | some m => setting ("g:" ++ m.group 1)
        | none =>
          match Pattern.flagLine.match? line with
          | some m =>
            let name := if m.group 1 != "" then m.group? 1 else m.group? 2
            flag name (m.group? 3)
          | none => unrecognized line

/-- Gives an entry the kind and the name that a definition defines. -/
def define (kind : Kind) (name : Value) : Act Entry Unit := do
  Entry.setKind kind.toValue
  Entry.setOwn "name" name

/-- Tells an entry above a line of code what it is about. -/
def update : CodeLine → Act Entry Unit
  | blank | endOfFile | unrecognized _ => pure ()
  | function name space parameters => do
    define .function (.text name)
    match space with
    | some space =>
      Entry.setOwn "namespace" (.text space)
      Entry.setOwn "local" (.flag true)
    | none => Entry.setOwn "local" (.flag false)
    Entry.setOwn "args" (.texts parameters)
  | command name flags => do
    define .command (.text name)
    Entry.setOwn "head" (.text flags.head)
  | setting name => define .setting (.text name)
  | flag name _ => define .flag (.ofText? name)

end CodeLine

end PluginHelp
