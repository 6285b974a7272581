/-
The lines of a doc comment: text and directives.

A directive is known by its name; each one accepts a certain form of what follows the name, and
leaves what it says on the entries it is meant for.
-/
import PluginHelp.Entry.Usage
import PluginHelp.Pattern.Argument
import PluginHelp.Pattern.Comment
import PluginHelp.Text.Casing

namespace PluginHelp

/-- The names of the directives. -/
inductive Keyword where
  | all | author | backmatter | command | default | deprecated | dict | exception | function
  | library | order | parentSection | markPrivate | markPublic | sect | setting | standalone
  | stylized | subSection | tagline | throws | usage
deriving DecidableEq, Repr

namespace Keyword

/-- How each name is written in a doc comment, and how messages call the directive. -/
def spellings : List (Keyword × String × String) :=
  [(all, "all", "All"), (author, "author", "Author"), (backmatter, "backmatter", "Backmatter"),
    (command, "command", "Command"), (default, "default", "Default"),
    (deprecated, "deprecated", "Deprecated"), (dict, "dict", "Dict"),
    (exception, "exception", "Exception_"), (function, "function", "Function"),
    (library, "library", "Library"), (order, "order", "Order"),
    (parentSection, "parentsection", "ParentSection"), (markPrivate, "private", "Private"),
    (markPublic, "public", "Public"), (sect, "section", "Section"),
    (setting, "setting", "Setting"), (standalone, "standalone", "Standalone"),
    (stylized, "stylized", "Stylized"), (subSection, "subsection", "SubSection"),
    (tagline, "tagline", "Tagline"), (throws, "throws", "Throws"), (usage, "usage", "Usage")]

/-- The directive of a name. -/
def ofName? (name : String) : Option Keyword :=
  (spellings.find? fun s => s.2.1 == name).map (·.1)

/-- What messages call the directive. -/
def label (keyword : Keyword) : String :=
  ((spellings.find? fun s => s.1 == keyword).map (·.2.2)).getD ""

/-- The form of what follows the name. -/
def arguments : Keyword → Pattern
  | all | library | markPrivate | markPublic | standalone => Pattern.noText
  | author | command | function | subSection | tagline => Pattern.anyLine
  | backmatter | parentSection => Pattern.sectionReference
  | default => Pattern.defaultValue
  | deprecated | setting => Pattern.filledLine
  | dict => Pattern.dictionaryMember
  | exception => Pattern.oneNameOrNone
  | order => Pattern.sectionOrder
  | sect => Pattern.sectionTitle
  | stylized => Pattern.oneWord
  | throws => Pattern.thrownError
  | usage => Pattern.usageLine

end Keyword

/-- A line of a doc comment. -/
inductive DocLine where
  | text (line : String)
  | all
  | author (name : String)
  | backmatter (id : String)
  | default (argument value : String)
  | deprecated (reason : String)
  | exception (word : Option String)
  | dict (name : String) (member : Option String)
  | library
  | order (ids : List String)
  | parentSection (id : String)
  | markPrivate
  | markPublic
  | sect (title id : String)
  | setting (name : String)
  | standalone
  | stylized (name : String)
  | subSection (title : String)
  | tagline (line : String)
  | throws (error : String) (description : Option String)
  | header (header : Header)
deriving DecidableEq, Repr

namespace DocLine

/-! ### Reading directives -/

/-- A title without the backslashes that escape its commas. -/
def unescapeCommas : List Char → List Char
  | '\\' :: ',' :: rest => ',' :: unescapeCommas rest
  | c :: rest => c :: unescapeCommas rest
  | [] => []

/-- A title without the backslashes that escape its backslashes. -/
def unescapeBackslashes : List Char → List Char
  | '\\' :: '\\' :: rest => '\\' :: unescapeBackslashes rest
  | c :: rest => c :: unescapeBackslashes rest
  | [] => []

/-- A title as it is meant: first the escaped commas, then the escaped backslashes. -/
def plainTitle (title : String) : String :=
  String.ofList (unescapeBackslashes (unescapeCommas title.toList))

/-- The identifier of a section that is given none: its title in small letters, with dashes. -/
def idOfTitle (title : String) : String :=
  Text.replaceChar ' ' '-' (Text.lower title)

/-- The name of a setting with its scope, which is global unless it is given. -/
def scopedSetting (name : String) : String :=
  if Pattern.settingScope.fits name then name else "g:" ++ name

/-- An error as help pages show it: the editor's own by number, others by name. -/
def shownError (error : String) : String :=
  if Pattern.editorError.fits error then error else "ERROR(" ++ error ++ ")"

/-- The directive that a match of its arguments means. -/
def ofMatch (keyword : Keyword) (m : Match) : DocLine :=
  match keyword with
  | .all => all
  | .author => author (m.group 1)
  | .backmatter => backmatter (m.group 1)
  | .command => header (.ofUsage .command (m.group 1))
  | .default => default (m.group 1) (m.group 2)
  | .deprecated => deprecated (m.group 1)
  | .dict => dict (m.group 1) (m.group? 2)
  | .exception => exception (m.group? 1)
  | .function => header (.ofUsage .function (m.group 1))
  | .library => library
  | .order => order (Pattern.orderItem.findTexts (m.group 1))
  | .parentSection => parentSection (Text.lower (m.group 1))
  | .markPrivate => markPrivate
  | .markPublic => markPublic
  | .sect =>
    let title := plainTitle (m.group 1)
    sect title ((m.group? 2).getD (idOfTitle title))
  | .setting => setting (scopedSetting (m.group 1))
  | .standalone => standalone
  | .stylized => stylized (m.group 1)
  | .subSection => subSection (m.group 1)
  | .tagline => tagline (m.group 1)
  | .throws => throws (shownError (m.group 1)) (m.group? 2)
  | .usage => header (.ofUsage .usage (m.group 1))

/-- Reads a directive and what follows its name. -/
def ofDirective (keyword : Keyword) (arguments : String) : Except Cause DocLine :=
  match keyword.arguments.match? arguments with
  | some m => .ok (ofMatch keyword m)
  | none => .error (.badArguments keyword.label arguments)

/-- Reads a comment line inside a doc comment. -/
def read (line : String) : Except Cause DocLine :=
  match Pattern.directive.match? line with
  | some m =>
    match Keyword.ofName? (m.group 1) with
    | some keyword => ofDirective keyword (m.group 2)
    | none => .error (.unknownDirective (m.group 1))
  | none => .ok (text (Pattern.commentLeader.replace "" line))

/-! ### What a line tells an entry -/

/-- The kind that a header gives to its entry. -/
def headerKind : HeaderKind → Act Entry Unit
  | .command => Entry.setKind Kind.command.toValue
  | .function => Entry.setKind Kind.function.toValue
  | .usage => pure ()

/-- Tells one entry what a line says. -/
def update : DocLine → Act Entry Unit
  | text line => Entry.addLine line
  | all => pure ()
  | author name => Entry.setShared "author" (.text name)
  | backmatter id => do
    Entry.setKind Kind.backmatter.toValue
    Entry.setOwn "id" (.text id)
  | default argument value => Entry.addDefault argument value
  | deprecated reason => Entry.setOwn "deprecated" (.text reason)
  | exception word => Entry.setOwn "exception" (.ofText? word)
  | dict name member => do
    Entry.setKind (.flag true)
    Entry.setOwn "dict" (.text name)
    match member with
    | some member =>
      Entry.setKind Kind.function.toValue
      Entry.setOwn "attribute" (.text member)
    | none => pure ()
  | library => Entry.setShared "library" (.flag true)
  | order ids => Entry.setShared "order" (.texts ids)
  | parentSection id => Entry.setParent (.text id)
  | markPrivate => Entry.setOwn "private" (.flag true)
  | markPublic => Entry.setOwn "private" (.flag false)
  | sect title id => do
    Entry.setKind Kind.sect.toValue
    Entry.setOwn "name" (.text title)
    Entry.setOwn "id" (.text id)
  | setting name => do
    Entry.setKind Kind.setting.toValue
    Entry.setOwn "name" (.text name)
  | standalone => Entry.setShared "standalone" (.flag true)
  | stylized name => Entry.setShared "stylization" (.text name)
  | subSection title => Entry.addHeading title
  | tagline line => Entry.setShared "tagline" (.text line)
  | throws error description => Entry.addError error description
  | header given => headerKind given.kind

end DocLine

end PluginHelp
