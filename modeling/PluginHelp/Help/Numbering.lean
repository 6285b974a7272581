/-
Numbering the sections in a table of contents.

Sections are counted per level: a section goes on with the count of its level, a deeper one begins a
count of its own, and counts of deeper levels end with the first section that lies higher.
-/
import PluginHelp.Entry.Basic
import PluginHelp.Stream

namespace PluginHelp.Help

/-- The counts of the levels in use, deepest first: each level with the last number given. -/
abbrev Counts := List (Int × Nat)

/-- Counts a section of a level, and gives its number.  The outermost count must not be left. -/
def count (counts : Counts) (level : Int) : Except Cause (Counts × Nat) :=
  match counts.dropWhile (level < ·.1) with
  | [] => .error .noSuchPlace
  | (held, n) :: outer =>
    if level == held then .ok ((held, n + 1) :: outer, n + 1)
    else .ok ((level, 1) :: (held, n) :: outer, 1)

/-- The level of a section that is numbered. -/
def numberedLevel (e : Entry) : Except Cause Int := do
  if !e.hasOwn "id" || !e.hasOwn "name" then
    .error (.assumption "Sections have an identifier and a title.")
  match (← e.needOwn "level").number? with
  | some level => return level
  | none => .error .wrongValue

/-- Numbers sections from the given counts on. -/
def numberFrom (counts : Counts) : List Entry → Stream (Nat × Entry)
  | [] => ⟨[], none⟩
  | e :: rest =>
    match numberedLevel e >>= count counts with
    | .error cause => .failed { cause }
    | .ok (counts, n) => (numberFrom counts rest).after [(n, e)]

/-- Numbers the sections of a table of contents. -/
def number (sections : List Entry) : Stream (Nat × Entry) :=
  numberFrom [(0, 0)] sections

end PluginHelp.Help
