/-
The lines of a source file that matter: those of its doc comments, and the line of code after each.

A doc comment begins with a doubled comment sign, goes on as long as comments follow, and ends with
the first line that is none; that line is the code it is about.  Everything else is passed over.
-/
import PluginHelp.Source.Code
import PluginHelp.Source.Directive
import PluginHelp.Source.Logical

namespace PluginHelp

/-- A line that matters. -/
inductive SourceLine where
  | code (line : CodeLine)
  | doc (line : DocLine)
deriving DecidableEq, Repr

namespace SourceLine

/-- The line of documentation that a text holds, with its number, and then what `rest` gives. -/
def readDoc (number : Nat) (text : String) (rest : Stream (Nat × SourceLine)) :
    Stream (Nat × SourceLine) :=
  match DocLine.read text with
  | .ok line => rest.after [(number, .doc line)]
  | .error cause => .failed { cause }

/-- The lines that matter among logical lines, inside or outside a doc comment. -/
def among (inDoc : Bool) : List (Nat × String) → Stream (Nat × SourceLine)
  | [] => ⟨[], none⟩
  | (number, text) :: lines =>
    if inDoc then
      if Source.isComment text then
        readDoc number text (among true lines)
      else
        (among false lines).after [(number, .code (.read text))]
    else if Pattern.docLeader.fits text then
      if Pattern.bareDocLeader.fits text then
        among true lines
      else
        -- Without its first comment sign the line is an ordinary comment.
        readDoc number (Pattern.commentLeader.replace "" text) (among true lines)
    else
      among false lines

/-- The lines of a file that matter. -/
def ofFile (lines : List String) : Stream (Nat × SourceLine) :=
  let logical := Source.logicalLines lines
  let read := among false logical.items
  ⟨read.items, read.fault <|> logical.fault⟩

end SourceLine

end PluginHelp
