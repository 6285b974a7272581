/-
Passages: the stretches that the text of an entry falls into.

A passage is open as long as further lines may join it.  Lines join running text and list items as
words, and code line by line; every other shape is complete at once.
-/
import PluginHelp.Act
import PluginHelp.Place

namespace PluginHelp

/-- What a passage holds. -/
inductive Body where
  /-- Nothing; lines that join it leave no trace. -/
  | bare
  /-- Running text. -/
  | prose (text : String)
  /-- A gap between passages. -/
  | gap
  /-- Lines of code. -/
  | code (lines : List String)
  /-- The value that an argument has by default. -/
  | default (argument value : String)
  /-- A list item. -/
  | item (leader : String) (level : Int) (text : String)
  /-- An error that may be thrown. -/
  | error (error description : String)
  /-- A heading. -/
  | heading (title : String)
deriving DecidableEq, Repr, Inhabited

/-- The shapes that passages have. -/
inductive Shape where
  | bare | prose | gap | code | default | item | error | heading
deriving DecidableEq, Repr

/-- The shape of what a passage holds. -/
def Body.shape : Body → Shape
  | bare => .bare
  | prose _ => .prose
  | gap => .gap
  | code _ => .code
  | default .. => .default
  | item .. => .item
  | error .. => .error
  | heading _ => .heading

/-- Whether something of this shape also counts as something of another one: everything is bare, and
a list item is prose. -/
def Shape.isA (shape other : Shape) : Bool :=
  other == .bare || shape == other || (shape == .item && other == .prose)

/-- Whether further lines may join at first. -/
def Shape.startsOpen : Shape → Bool
  | bare | prose | code | item => true
  | gap | default | error | heading => false

/-- A stretch of text. -/
structure Passage where
  isOpen : Bool
  body : Body
deriving DecidableEq, Repr, Inhabited

namespace Passage

/-- A new passage. -/
def ofBody (body : Body) : Passage :=
  ⟨body.shape.startsOpen, body⟩

/-- A line joined to a text: a space keeps the words apart. -/
def joinLine (text line : String) : String :=
  if text == "" then line else text ++ " " ++ line

/-- Adds a line to what a passage holds. -/
def extend (line : String) : Body → Body
  | .prose text => .prose (joinLine text line)
  | .item leader level text => .item leader level (joinLine text line)
  | .code lines => .code (lines ++ [line])
  | body => body

/-- Adds a line to an open passage. -/
def addLine (p : Passage) (line : String) : Except Cause Passage :=
  if p.isOpen then .ok { p with body := extend line p.body } else .error .closedPassage

/-- Closes a passage. -/
def close (p : Passage) : Passage :=
  { p with isOpen := false }

end Passage

/-- The passages of an entry, in order.  Only the last one may still grow. -/
abbrev Passages := List Passage

namespace Passages

/-- Whether the last passage is open and counts as one of the given shape. -/
def growing (ps : Passages) (shape : Shape) : Bool :=
  match ps.getLast? with
  | none => false
  | some p => p.isOpen && p.body.shape.isA shape

/-- Begins a passage, unless the last one is open and already of that shape. -/
def begin (ps : Passages) (body : Body) : Passages :=
  if ps.growing body.shape then ps else ps ++ [.ofBody body]

/-- Adds a line to the last passage. -/
def addLine (ps : Passages) (line : String) : Except Cause Passages :=
  match ps.getLast? with
  | none => .error .noOpenPassage
  | some p =>
    if p.isOpen then
      (p.addLine line).map fun p => ps.dropLast ++ [p]
    else
      .error .noOpenPassage

/-- Adds a line to the passage at a place; a negative place counts from the end. -/
def addLineAt (ps : Passages) (number : Int) (line : String) : Except Cause Passages :=
  match place? ps.length number with
  | none => .error .noSuchPlace
  | some i =>
    match ps[i]? with
    | none => .error .noSuchPlace
    | some p => (p.addLine line).map (ps.set i)

/-- Closes the last passage. -/
def close (ps : Passages) : Passages :=
  match ps.getLast? with
  | none => ps
  | some p => ps.dropLast ++ [p.close]

end Passages

end PluginHelp
