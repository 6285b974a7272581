/-
Logical lines: source lines with their continuations joined.

A line that begins with a backslash goes on with the line before it.  A logical line carries the
number of the source line it begins with, counted from zero.
-/
import PluginHelp.Stream
import PluginHelp.Pattern.Comment

namespace PluginHelp

namespace Source

/-- Whether a line is a comment. -/
def isComment (line : String) : Bool :=
  Pattern.commentLeader.fits line

/-- Whether a line goes on with the one before it. -/
def isContinuation (line : String) : Bool :=
  Pattern.continuation.fits line

/-- A continued line without what marks it as one. -/
def continuedText (line : String) : String :=
  Pattern.continuation.replace "" line

/-- A line without the line ends that end it. -/
def withoutLineEnds (line : String) : String :=
  String.ofList (Text.dropEndWhile (· == '\n') line.toList)

/-- The fault of a continued line, which is known by its number only. -/
def cannotContinue (reason : String) (number : Nat) : Fault where
  cause := .cannotContinue reason
  origin := { file := some (toString number) }

/-- Joins the lines from number `number` on to the logical line `pending`, if one is begun. -/
def joinFrom (pending : Option (Nat × String)) (number : Nat) :
    List String → Stream (Nat × String)
  | [] => ⟨pending.toList, none⟩
  | line :: lines =>
    let text := withoutLineEnds line
    if isContinuation text then
      match pending with
      | none => .failed (cannotContinue "No preceding line." number)
      | some (first, begun) =>
        if isComment begun && !isComment text then
          .failed (cannotContinue "No comment to continue." number)
        else
          joinFrom (some (first, begun ++ continuedText text)) (number + 1) lines
    else
      (joinFrom (some (number, text)) (number + 1) lines).after pending.toList

/-- The logical lines of a file. -/
def logicalLines (lines : List String) : Stream (Nat × String) :=
  joinFrom none 0 lines

end Source

end PluginHelp
