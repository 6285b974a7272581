/-
What can go wrong, and how it is reported.

A cause says what is wrong.  A cause found while source lines are read can be given an origin, the
file and the line; the origin then stands before the text of the report.
-/
import PluginHelp.Value.Compare

namespace PluginHelp

/-- What is wrong. -/
inductive Cause where
  /-- Something that is described by a text only. -/
  | general (report : String)
  /-- A continued line with nothing to go on with. -/
  | cannotContinue (reason : String)
  /-- Two kinds for one entry. -/
  | kindConflict (held wanted : Value)
  /-- A selected entry that does not exist. -/
  | noSuchEntry (number : Value) (count : Nat) (selection : Value)
  /-- A directive that does not accept what follows it. -/
  | badArguments (directive given : String)
  /-- A directive that does not exist. -/
  | unknownDirective (name : String)
  /-- An inline directive that does not exist. -/
  | unknownInline (what : String)
  /-- A control that is given twice. -/
  | redundantControl (control : String)
  /-- A control that is given two values. -/
  | inconsistentControl (control : String) (held wanted : Value)
  /-- Two headers for one entry. -/
  | multipleHeaders
  /-- An entry that makes no sense. -/
  | invalidEntry (reason : String)
  /-- An entry whose kind is still open when it is needed. -/
  | ambiguousEntry
  /-- A fault of the section structure that is described by a text only. -/
  | badStructure (report : String)
  /-- Backmatter of a section that does not exist. -/
  | noSuchSection (id : Value)
  /-- A parent given to something that is not a section. -/
  | misplacedParent (id : Value)
  /-- A section whose parent does not exist. -/
  | noSuchParent (title parent : Value)
  /-- Two sections with one identifier. -/
  | duplicateSection (id : Value)
  /-- Two backmatters for one section. -/
  | duplicateBackmatter (id : Value)
  /-- Sections that the order leaves out. -/
  | neglectedSections (sections order : Value)
  /-- A section with a parent that stands in the order. -/
  | orderedChild (id order : Value)
  /-- A control or a name that is missing where it is needed. -/
  | missing (what : String)
  /-- A line for a passage that is closed. -/
  | closedPassage
  /-- A line where no passage is open. -/
  | noOpenPassage
  /-- A passage that is none of the known shapes. -/
  | shapelessPassage
  /-- Text for a page that is not there. -/
  | noPage
  /-- A value that is not of the kind that is needed. -/
  | wrongValue
  /-- A text that is needed where there is something else or nothing. -/
  | notText
  /-- A header for an entry that has one. -/
  | secondHeader
  /-- Something that was taken for granted and does not hold. -/
  | assumption (what : String)
  /-- A place in a list that does not exist. -/
  | noSuchPlace
  /-- A file whose bytes are no text. -/
  | notUtf8
  /-- A file or a directory that is not there. -/
  | noSuchFile
  /-- A directory that cannot be made because the name is taken. -/
  | nameTaken
  /-- A directory where a file is needed. -/
  | isDirectory
  /-- A file where a directory is needed. -/
  | notDirectory
  /-- A description of a plugin that has no fields. -/
  | notObject
  /-- An order that is no list where it has to grow. -/
  | notList
  /-- A file name that no file can have. -/
  | badFileName
  /-- A file name that is too long. -/
  | longFileName
  /-- Something that lies too deep in other things. -/
  | tooDeep
deriving DecidableEq, Repr

namespace Cause

/-- The text of a report, without the origin. -/
def report : Cause → String
  | general report | cannotContinue report | invalidEntry report | badStructure report => report
  | kindConflict held wanted => s!"Type {held.shown} is incompatible with type {wanted.shown}"
  | noSuchEntry number count selection =>
    s!"There is no block number {number.shown}. There are {count} blocks. "
      ++ s!"Current selection is {selection.shown}"
  | badArguments directive given => s!"Invalid args for block {directive}: \"{given}\""
  | unknownDirective name => s!"Unrecognized block directive \"{name}\""
  | unknownInline what => s!"Unrecognized inline directive \"{what}\""
  | redundantControl control => s!"Redundant control \"{control}\""
  | inconsistentControl control held wanted =>
    s!"Inconsistent control \"{control}\" ({held.shown} vs {wanted.shown})"
  | multipleHeaders => "Block given multiple headers."
  | ambiguousEntry => "Block type is ambiguous."
  | noSuchSection id => s!"Section {id.shown} never defined."
  | misplacedParent id => s!"Parent section {id.shown} defined outside a @section block."
  | noSuchParent title parent =>
    s!"Section {title.shown} has non-existent parent {parent.shown}. "
      ++ "Try setting the id of the parent section explicitly."
  | duplicateSection id => s!"Duplicate section {id.shown} defined."
  | duplicateBackmatter id => s!"Duplicate backmatter defined for section {id.shown}."
  | neglectedSections sections order =>
    s!"Sections {sections.shown} not included in ordering {order.shown}."
  | orderedChild id order => s!"Child section {id.shown} included in ordering {order.shown}."
  | missing what => what
  | closedPassage => "Can't add to closed paragraphs."
  | noOpenPassage => "Paragraph manager doesn't have an open paragraph."
  | noPage => "Helpfile writer not yet given helpfile to write."
  | assumption what => what
  | badFileName => "embedded null byte"
  | shapelessPassage | wrongValue | notText | secondHeader | noSuchPlace | notUtf8 | noSuchFile
  | nameTaken | isDirectory | notDirectory | notObject | notList | longFileName | tooDeep => ""

/-- Whether a cause belongs to a place in a source file. -/
def isLocal : Cause → Bool
  | general _ | cannotContinue _ | kindConflict .. | noSuchEntry .. | badArguments ..
  | unknownDirective _ | unknownInline _ | redundantControl _ | inconsistentControl ..
  | multipleHeaders | invalidEntry _ | ambiguousEntry => true
  | _ => false

end Cause

/-- Where in the sources something was found, as far as that is known. -/
structure Origin where
  file : Option String := none
  line : Option Int := none
deriving DecidableEq, Repr

namespace Origin

/-- A line number in at least three places. -/
def lineText (n : Int) : String :=
  let digits := toString n.natAbs
  let sign := if n < 0 then "-" else ""
  sign ++ String.ofList (List.replicate (3 - sign.length - digits.length) '0') ++ digits

/-- The text that an origin puts before a report; a missing half is shown as question marks. -/
def lead (o : Origin) : String :=
  if o.file.isNone && o.line.isNone then
    ""
  else
    o.file.getD "???" ++ "." ++ (o.line.map lineText).getD "???" ++ ": "

end Origin

/-- A cause with its origin. -/
structure Fault where
  cause : Cause
  origin : Origin := {}
deriving DecidableEq, Repr

namespace Fault

/-- The whole report. -/
def report (f : Fault) : String :=
  f.origin.lead ++ f.cause.report

/-- The same fault found in a line of a file, if its cause belongs to one.  The file may have no
name. -/
def locatedAt (f : Fault) (file : Option String) (line : Int) : Fault :=
  if f.cause.isLocal then { f with origin := ⟨file, some line⟩ } else f

end Fault

/-- Something that is odd and does not stop the work. -/
inductive Warning where
  /-- The documentation names other required arguments than the signature. -/
  | argumentMismatch (signature : List Value) (documented : List String)
  /-- The documentation names optional arguments that the signature has no room for. -/
  | unacceptedOptionals (function : String)
  /-- The description of the plugin cannot be read. -/
  | badAddonInfo
deriving DecidableEq, Repr

/-- The text of a warning. -/
def Warning.report : Warning → String
  | argumentMismatch signature documented =>
    "Arguments do not match function signature. Function signature arguments are "
      ++ s!"{(Value.list signature).shown}. Documentation arguments are "
      ++ s!"{(Value.texts documented).shown}."
  | unacceptedOptionals function =>
    s!"Documentation claims optional parameters that function {function} does not accept."
  | badAddonInfo => ""

end PluginHelp
