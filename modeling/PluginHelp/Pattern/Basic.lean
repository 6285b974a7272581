/-
Patterns of text, and where they match.

A pattern is a small tree: one character of a class, a test of the place, sequence, ordered choice,
repetition and capture.  Matching tries the possibilities in a fixed order and takes the first one
that lets everything after it match too: the left side of a choice before the right one, one more
repetition before none (or the other way round for a reluctant repetition).

`Pattern.run` is written with a continuation, which is what is left to match.  Backtracking is then
the plain order in which the continuation is tried, and no stack of choices has to be kept.
-/
namespace PluginHelp

/-- A place in a text with what has been captured on the way to it.  `read` is the text before the
place, nearest character first, and `rest` the text after it. -/
structure Scan where
  read : List Char
  rest : List Char
  captured : List (Nat × String)

namespace Scan

/-- The place before the first character of a text. -/
def start (s : List Char) : Scan :=
  ⟨[], s, []⟩

/-- The place one character `c` further, where `rest` is left. -/
def advance (s : Scan) (c : Char) (rest : List Char) : Scan :=
  ⟨c :: s.read, rest, s.captured⟩

/-- The text between an earlier place and this one. -/
def since (s earlier : Scan) : String :=
  String.ofList (s.read.take (s.read.length - earlier.read.length)).reverse

/-- Captures the text since `earlier` under a number; a later capture hides an earlier one. -/
def capture (s : Scan) (number : Nat) (earlier : Scan) : Scan :=
  ⟨s.read, s.rest, (number, s.since earlier) :: s.captured⟩

end Scan

/-- A pattern of text. -/
inductive Pattern where
  /-- The empty text. -/
  | empty
  /-- One character of a class. -/
  | one (accepts : Char → Bool)
  /-- The empty text, at a place that passes a test of what precedes it, nearest first, and of what
  follows it. -/
  | test (holds : List Char → List Char → Bool)
  /-- One pattern, then another. -/
  | seq (first second : Pattern)
  /-- The first pattern, or else the second one. -/
  | alt (first second : Pattern)
  /-- As many repetitions as possible, or fewer if the rest needs it. -/
  | many (body : Pattern)
  /-- As few repetitions as possible, or more if the rest needs it. -/
  | reluctant (body : Pattern)
  /-- A pattern whose text is captured under a number. -/
  | capture (number : Nat) (body : Pattern)

/-- A match: where it starts and stops, its text, and the text of each capture, first number first. -/
structure Match where
  start : Nat
  stop : Nat
  text : String
  groups : List (Option String)
deriving DecidableEq, Repr

/-- The text of a capture, counted from one; empty if it took no part in the match. -/
def Match.group (m : Match) (number : Nat) : String :=
  ((m.groups[number - 1]?).join).getD ""

/-- The text of a capture, counted from one, if it took part in the match. -/
def Match.group? (m : Match) (number : Nat) : Option String :=
  (m.groups[number - 1]?).join

/-- A stretch of a text that was searched: one that no match covers, or a match. -/
inductive Piece where
  | plain (text : String)
  | hit (found : Match)
deriving DecidableEq, Repr

namespace Pattern

variable {β : Type}

/-! ### Matching

`bound` limits the repetitions.  Every body that the library repeats takes at least one character, so
the length of the remaining text is never too small a bound.
-/

/-- Repeats `step` as often as possible before going on with `next`. -/
def greedily (step : (Scan → Option β) → Scan → Option β) (next : Scan → Option β) :
    (bound : Nat) → Scan → Option β
  | 0, s => next s
  | bound + 1, s =>
    match step (greedily step next bound) s with
    | some b => some b
    | none => next s

/-- Repeats `step` only when `next` does not go on from here. -/
def reluctantly (step : (Scan → Option β) → Scan → Option β) (next : Scan → Option β) :
    (bound : Nat) → Scan → Option β
  | 0, s => next s
  | bound + 1, s =>
    match next s with
    | some b => some b
    | none => step (reluctantly step next bound) s

/-- Matches a pattern from a place and goes on with `next`; the first success counts. -/
def run : Pattern → (next : Scan → Option β) → Scan → Option β
  | empty, next, s => next s
  | one accepts, next, s =>
    match s.rest with
    | [] => none
    | c :: rest => if accepts c then next (s.advance c rest) else none
  | test holds, next, s => if holds s.read s.rest then next s else none
  | seq first second, next, s => first.run (second.run next) s
  | alt first second, next, s =>
    match first.run next s with
    | some b => some b
    | none => second.run next s
  | many body, next, s => greedily body.run next s.rest.length s
  | reluctant body, next, s => reluctantly body.run next s.rest.length s
  | capture number body, next, s => body.run (fun t => next (t.capture number s)) s

/-- The highest capture number of a pattern. -/
def groupCount : Pattern → Nat
  | empty | one _ | test _ => 0
  | seq first second | alt first second => max first.groupCount second.groupCount
  | many body | reluctant body => body.groupCount
  | capture number body => max number body.groupCount

/-- The match that led from one place to another. -/
def found (p : Pattern) (s t : Scan) : Match where
  start := s.read.length
  stop := t.read.length
  text := t.since s
  groups := (List.range p.groupCount).map fun i => t.captured.lookup (i + 1)

/-- Where a match from this place ends.  If `mustMove`, the empty text is no match. -/
def endFrom? (p : Pattern) (mustMove : Bool) (s : Scan) : Option Scan :=
  p.run (fun t => if mustMove && t.read.length == s.read.length then none else some t)
    ⟨s.read, s.rest, []⟩

/-- The first place, at or after the given one, from which there is a match, and where that ends.
`mustMove` is about a match at the given place only. -/
def next? (p : Pattern) (mustMove : Bool) (read : List Char) :
    (rest : List Char) → Option (Scan × Scan)
  | [] => (p.endFrom? mustMove ⟨read, [], []⟩).map fun t => (⟨read, [], []⟩, t)
  | c :: rest =>
    match p.endFrom? mustMove ⟨read, c :: rest, []⟩ with
    | some t => some (⟨read, c :: rest, []⟩, t)
    | none => p.next? false (c :: read) rest

/-! ### Questions to a pattern -/

/-- The match at the start of a text. -/
def match? (p : Pattern) (s : String) : Option Match :=
  (p.endFrom? false (.start s.toList)).map (p.found (.start s.toList))

/-- Whether a pattern matches at the start of a text. -/
def fits (p : Pattern) (s : String) : Bool :=
  (p.match? s).isSome

/-- The first match in a text. -/
def search? (p : Pattern) (s : String) : Option Match :=
  (p.next? false [] s.toList).map fun (a, b) => p.found a b

/-- The stretches of a text from the place `s` on, at most `bound` matches.  After an empty match
the next one has to move on. -/
def piecesFrom (p : Pattern) : (bound : Nat) → (mustMove : Bool) → Scan → List Piece
  | 0, _, s => [.plain (String.ofList s.rest)]
  | bound + 1, mustMove, s =>
    match p.next? mustMove s.read s.rest with
    | none => [.plain (String.ofList s.rest)]
    | some (a, b) =>
      .plain (a.since s) :: .hit (p.found a b)
        :: p.piecesFrom bound (b.read.length == a.read.length) b

/-- A text cut into its matches and what lies between them.  Two matches in a row move on by at
least one character, so twice the length bounds their number. -/
def pieces (p : Pattern) (s : String) : List Piece :=
  p.piecesFrom (2 * s.toList.length + 2) false (.start s.toList)

/-- All matches in a text, in order and without overlaps. -/
def findAll (p : Pattern) (s : String) : List Match :=
  (p.pieces s).filterMap fun
    | .plain _ => none
    | .hit found => some found

/-- The texts of all matches, or of their only capture for a pattern that captures. -/
def findTexts (p : Pattern) (s : String) : List String :=
  (p.findAll s).map fun found => if p.groupCount == 0 then found.text else found.group 1

/-- A text with every match replaced. -/
def replaceWith (p : Pattern) (replacement : Match → String) (s : String) : String :=
  String.join ((p.pieces s).map fun
    | .plain text => text
    | .hit found => replacement found)

/-- A text with every match replaced by the same text. -/
def replace (p : Pattern) (replacement s : String) : String :=
  p.replaceWith (fun _ => replacement) s

/-! ### Building patterns

`p ++ q` is one after the other, `p <|> q` an ordered choice.
-/

instance : Append Pattern := ⟨seq⟩

instance : OrElse Pattern := ⟨fun p q => alt p (q ())⟩

/-- The given character. -/
def char (c : Char) : Pattern :=
  one (· == c)

/-- The given characters in a row. -/
def chars : List Char → Pattern
  | [] => empty
  | [c] => char c
  | c :: rest => char c ++ chars rest

/-- The given text. -/
def text (s : String) : Pattern :=
  chars s.toList

/-- Once or not at all, preferably once. -/
def optional (p : Pattern) : Pattern :=
  p <|> empty

/-- At least once, as often as possible. -/
def oneOrMore (p : Pattern) : Pattern :=
  p ++ many p

/-- The start of the text. -/
def atStart : Pattern :=
  test fun read _ => read.isEmpty

/-- The end of the text, or the place before a line end that ends the text. -/
def atEnd : Pattern :=
  test fun _ rest => rest.isEmpty || rest == ['\n']

/-- A place where the given text follows. -/
def before (s : String) : Pattern :=
  test fun _ rest => s.toList.isPrefixOf rest

/-- A whole text: the pattern between start and end. -/
def whole (p : Pattern) : Pattern :=
  atStart ++ p ++ atEnd

end Pattern

end PluginHelp
