/-
The command line.

The arguments are read from left to right: a request for help or for the version is answered as soon
as it is met, and a folder is checked as soon as it is met.  What is left over is refused at the end.
-/
import PluginHelp.Build.Pages

namespace PluginHelp.CommandLine

/-- The name of the program. -/
def program : String :=
  "vimdoc"

/-- The version of the program. -/
def version : String :=
  "__unknown__"

/-- How the program is used. -/
def usage : String :=
  "usage: " ++ program ++ " [-h] [--version] PLUGIN\n"

/-- What the program says about itself. -/
def help : String :=
  usage ++ "\nGenerate vim helpfiles\n\nBasic usage:\n  " ++ program ++ " vim-someplugin/\n  (or "
    ++ program ++ " .)\n\npositional arguments:\n  PLUGIN      a vim plugin directory\n\n"
    ++ "options:\n  -h, --help  show this help message and exit\n"
    ++ "  --version   show program's version number and exit\n"

/-- What may be asked for by an option. -/
inductive Topic where
  | help | version
deriving DecidableEq, Repr

/-- An option as messages call it. -/
def Topic.label : Topic → String
  | help => "-h/--help"
  | version => "--version"

/-- The spellings of the options. -/
def spellings : List (String × Topic) :=
  [("-h", .help), ("--help", .help), ("--version", .version)]

/-- What the command line asks for. -/
inductive Request where
  | tell (topic : Topic)
  | refuse (message : String)
  | document (folder : String)
deriving DecidableEq, Repr

/-! ### Single arguments -/

/-- An argument as it is understood by itself. -/
inductive Argument where
  /-- Not an option. -/
  | plain (given : String)
  /-- The sign that no more options follow. -/
  | dashes
  /-- An option that does not exist. -/
  | unknown (given : String)
  /-- An option and what it leads to. -/
  | option (request : Request)
deriving DecidableEq, Repr

/-- The message that an option was given a value it has no use for. -/
def uselessValue (topic : Topic) (value : String) : Request :=
  .refuse ("argument " ++ topic.label ++ ": ignored explicit argument " ++ Text.quoted value)

/-- What one-letter options in a row lead to, after the one for help.  `isValue` says that an equals
sign stood before the letters. -/
def letterRun (isValue : Bool) (letters : List Char) : Request :=
  match isValue, letters with
  | _, [] => uselessValue .help ""
  | true, letters => uselessValue .help (String.ofList letters)
  | false, '-' :: rest => uselessValue .help (String.ofList ('-' :: rest))
  | false, ['h'] => .tell .help
  | false, 'h' :: '=' :: rest => letterRun true rest
  | false, 'h' :: rest => letterRun false rest
  | false, _ => .tell .help

/-- A text before the first equals sign, and what stands after it. -/
def splitValue (s : List Char) : List Char × Option (List Char) :=
  match s.dropWhile (· != '=') with
  | [] => (s, none)
  | _ :: value => (s.takeWhile (· != '='), some value)

/-- What a long option with a value leads to. -/
def longOption (topic : Topic) : Option (List Char) → Request
  | none => .tell topic
  | some value => uselessValue topic (String.ofList value)

/-- A negative number, which is no option. -/
def negativeNumber : Pattern :=
  .atStart ++ .char '-' ++ .number ++ .atEnd
    <|> .atStart ++ .char '-' ++ .many (.one Text.isDigit) ++ .char '.' ++ .number ++ .atEnd

/-- Something that looks like an option and is none. -/
def otherArgument (given : String) : Argument :=
  if negativeNumber.fits given || given.toList.contains ' ' then .plain given else .unknown given

/-- Reads an argument that begins with two dashes: the start of an option is enough, and it has to be
the start of only one. -/
def readLong (given : String) : Except String Argument :=
  let (name, value) := splitValue given.toList
  match spellings.filter fun s => name.isPrefixOf s.1.toList with
  | [] => .ok (otherArgument given)
  | [(_, topic)] => .ok (.option (longOption topic value))
  | several =>
    .error ("ambiguous option: " ++ given ++ " could match "
      ++ ", ".intercalate (several.map (·.1)))

/-- Reads an argument. -/
def readArgument (given : String) : Except String Argument :=
  match given.toList with
  | ['-', '-'] => .ok .dashes
  | '-' :: '-' :: _ => readLong given
  | ['-', 'h'] => .ok (.option (.tell .help))
  | '-' :: 'h' :: '=' :: value => .ok (.option (letterRun true value))
  | '-' :: 'h' :: letters => .ok (.option (letterRun false letters))
  | '-' :: _ :: _ => .ok (otherArgument given)
  | _ => .ok (.plain given)

/-- Reads the arguments; after two dashes there are no options. -/
def readArguments : List String → Except String (List Argument)
  | [] => .ok []
  | given :: rest => do
    match ← readArgument given with
    | .dashes => return .dashes :: rest.map .plain
    | argument => return argument :: (← readArguments rest)

/-! ### The whole line -/

/-- Whether a folder can be documented, and if not, why. -/
def checkFolder (desk : Build.Desk) (unreadable : List String) (folder : String) :
    Except String Unit :=
  let disk := desk.disk
  if !disk.hasFolder folder then
    .error ("argument PLUGIN: " ++ folder ++ " not found")
  else if (unreadable.map (Path.walk disk.place)).contains (Path.walk disk.place folder) then
    .error ("argument PLUGIN: Cannot access " ++ folder)
  else
    .ok ()

/-- What is asked for once all arguments are read. -/
def conclude (folder : Option String) (surplus : List String) : Request :=
  match folder with
  | none => .refuse "the following arguments are required: PLUGIN"
  | some folder =>
    if surplus.isEmpty then .document folder
    else .refuse ("unrecognized arguments: " ++ " ".intercalate surplus)

/-- Reads arguments, given the folder and the surplus found so far.  The sign that no more options
follow belongs to the folder if it stands right beside it. -/
def readFrom (check : String → Except String Unit) :
    (folder : Option String) → (surplus : List String) → List Argument → Request
  | folder, surplus, [] => conclude folder surplus
  | _, _, .option request :: _ => request
  | folder, surplus, .unknown given :: rest => readFrom check folder (surplus ++ [given]) rest
  | none, surplus, .dashes :: .plain given :: rest
  | none, surplus, .plain given :: .dashes :: rest
  | none, surplus, .plain given :: rest =>
    match check given with
    | .error message => .refuse message
    | .ok _ => readFrom check (some given) surplus rest
  | folder, surplus, .dashes :: rest => readFrom check folder (surplus ++ ["--"]) rest
  | some folder, surplus, .plain given :: rest =>
    readFrom check (some folder) (surplus ++ [given]) rest

/-- What the arguments ask for. -/
def request (check : String → Except String Unit) (given : List String) : Request :=
  match readArguments given with
  | .error message => .refuse message
  | .ok arguments => readFrom check none [] arguments

/-! ### Running -/

/-- What the program says and how it ends. -/
structure Reply where
  status : Nat := 0
  output : String := ""
  errors : String := ""
deriving Repr

/-- Answers a request that needs no files. -/
def answer : Request → Reply
  | .tell .help => { output := help }
  | .tell .version => { output := program ++ " " ++ version ++ "\n" }
  | .refuse message =>
    { status := 2, errors := usage ++ program ++ ": error: " ++ message ++ "\n" }
  | .document _ => {}

/-- Does what a request asks for. -/
def serve : Request → Act Build.Desk Reply
  | .document folder => do
    let docFolder := Path.join folder "doc"
    Build.makeFolder docFolder
    Build.build folder docFolder
    return {}
  | other => return answer other

/-- Runs the program on its arguments.  Folders that cannot be read are given by their paths. -/
def run (unreadable : List String) (given : List String) : Act Build.Desk Reply := do
  let desk ← Act.get
  serve (request (checkFolder desk unreadable) given)

end PluginHelp.CommandLine
