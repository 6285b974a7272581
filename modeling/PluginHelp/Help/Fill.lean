/-
Filling lines with text.

A text is cut into chunks, which are words and the spaces between them, and the chunks are put on
lines of limited width.  A chunk that is longer than a whole line is cut.  Spaces are left out where
a line would begin with them, the first line apart, and at the end of a line.
-/
import PluginHelp.Pattern.Character

namespace PluginHelp.Help

open PluginHelp.Text

/-! ### Chunks -/

/-- A text with tabs widened to the next multiple of eight columns. -/
def widenTabs (column : Nat) : List Char → List Char
  | [] => []
  | c :: rest =>
    if c == '\t' then
      List.replicate (8 - column % 8) ' ' ++ widenTabs (column + (8 - column % 8)) rest
    else if c == '\n' || c == '\r' then
      c :: widenTabs 0 rest
    else
      c :: widenTabs (column + 1) rest

/-- A character that separates chunks. -/
def isGap (c : Char) : Bool :=
  c == ' ' || (9 ≤ c.toNat && c.toNat ≤ 13)

/-- A text in which every separating character is a plain space. -/
def plainSpaces (s : List Char) : List Char :=
  (widenTabs 0 s).map fun c => if isGap c then ' ' else c

/-- Runs of characters on which `p` agrees, in order; concatenated they are the text. -/
def runsOf (p : Char → Bool) : List Char → List (List Char)
  | [] => []
  | c :: rest =>
    match runsOf p rest with
    | (d :: run) :: runs => if p c == p d then (c :: d :: run) :: runs else [c] :: (d :: run) :: runs
    | runs => [c] :: runs

/-- The words of a text and the spaces between them. -/
def wordChunks (s : String) : List (List Char) :=
  runsOf isGap (plainSpaces s.toList)

/-- A letter: a word character that is no digit. -/
def isLetter (c : Char) : Bool :=
  isWord c && !isDigit c

/-- A character that may stand before a dash between words. -/
def isWordOrMark (c : Char) : Bool :=
  isWord c || ['!', '"', '\'', '&', '.', ',', '?'].contains c

/-- The place after a hyphen inside a word: two letters precede it, or two single letters with a
hyphen between them. -/
def afterHyphen : List Char → Bool
  | '-' :: a :: b :: rest =>
    (isLetter a && isLetter b)
      || (isLetter a && b == '-' && rest.head?.any isLetter)
  | _ => false

/-- A place where a word goes on with two letters, perhaps with a hyphen between them. -/
def wordGoesOn : List Char → Bool
  | a :: b :: rest =>
    isLetter a && (isLetter b || (b == '-' && rest.head?.any isLetter))
  | _ => false

/-- A place where a dash of two or more hyphens stands before a word. -/
def dashFollows (rest : List Char) : Bool :=
  2 ≤ (rest.takeWhile (· == '-')).length && (rest.dropWhile (· == '-')).head?.any isWord

/-- Spaces, a dash between words, or a word up to a place where it may be broken. -/
def breakable : Pattern :=
  .oneOrMore (.one isGap)
    <|> .test (fun read _ => read.head?.any isWordOrMark)
      ++ .char '-' ++ .oneOrMore (.char '-') ++ .test (fun _ rest => rest.head?.any isWord)
    <|> .one (!isGap ·) ++ .reluctant (.one (!isGap ·))
      ++ (.char '-' ++ .test (fun read rest => afterHyphen read && wordGoesOn rest)
        <|> .test (fun _ rest => rest.head?.all isGap)
        <|> .test (fun read rest => read.head?.any isWordOrMark && dashFollows rest))

/-- The chunks of a text whose words may be broken at hyphens. -/
def hyphenChunks (s : String) : List (List Char) :=
  ((breakable.pieces (String.ofList (plainSpaces s.toList))).map fun
    | .plain text => text.toList
    | .hit found => found.text.toList).filter (!·.isEmpty)

/-! ### Lines -/

/-- How lines are filled. -/
structure Filling where
  width : Nat
  /-- What the first line begins with. -/
  first : String
  /-- What every other line begins with. -/
  later : String
  /-- Whether words may be broken at hyphens. -/
  atHyphens : Bool

/-- Whether a chunk has no character but blanks. -/
def isBlankChunk (chunk : List Char) : Bool :=
  chunk.all isBlank

/-- The chunks that fit on a line of which `used` columns are taken, and the others. -/
def takeFitting (width : Int) (used : Nat) : List (List Char) → List (List Char) × List (List Char)
  | [] => ([], [])
  | chunk :: rest =>
    if (used + chunk.length : Int) ≤ width then
      let (taken, left) := takeFitting width (used + chunk.length) rest
      (chunk :: taken, left)
    else
      ([], chunk :: rest)

/-- Where a chunk is cut that is too long for the room left: after the last hyphen that has something
other than hyphens before it, if words may be broken there, or else where the room ends. -/
def cutPlace (atHyphens : Bool) (room : Nat) (chunk : List Char) : Nat :=
  if atHyphens && room < chunk.length then
    let upToHyphen := dropEndWhile (· != '-') (chunk.take room)
    if upToHyphen.dropLast.any (· != '-') then upToHyphen.length else room
  else
    room

/-- Fills the rest of a line with the start of a chunk that would not fit on a line of its own. -/
def fillUp (atHyphens : Bool) (width : Int) (taken left : List (List Char)) :
    List (List Char) × List (List Char) :=
  match left with
  | [] => (taken, [])
  | chunk :: rest =>
    if width < chunk.length then
      let room := if width < 1 then 1 else (width - (taken.flatten.length : Int)).toNat
      let cut := cutPlace atHyphens room chunk
      (taken ++ [chunk.take cut], chunk.drop cut :: rest)
    else
      (taken, left)

/-- A line without a last chunk that is blank. -/
def dropBlankEnd (taken : List (List Char)) : List (List Char) :=
  match taken.getLast? with
  | some chunk => if isBlankChunk chunk then taken.dropLast else taken
  | none => taken

/-- Chunks without a first one that is blank. -/
def dropBlankStart : List (List Char) → List (List Char)
  | chunk :: rest => if isBlankChunk chunk then rest else chunk :: rest
  | [] => []

/-- One line of chunks, and the chunks that are left for later lines. -/
def fillLine (f : Filling) (isFirst : Bool) (chunks : List (List Char)) :
    List (List Char) × List (List Char) :=
  let width : Int := f.width - ((if isFirst then f.first else f.later).length : Int)
  let (taken, left) := takeFitting width 0 (if isFirst then chunks else dropBlankStart chunks)
  let (taken, left) := fillUp f.atHyphens width taken left
  (dropBlankEnd taken, left)

/-- Puts chunks on lines.  Every line takes at least one character, which bounds their number. -/
def fillFrom (f : Filling) : (bound : Nat) → (isFirst : Bool) → List (List Char) → List String
  | 0, _, _ => []
  | _, _, [] => []
  | bound + 1, isFirst, chunks =>
    let (taken, left) := fillLine f isFirst chunks
    if taken.isEmpty then
      fillFrom f bound isFirst left
    else
      ((if isFirst then f.first else f.later) ++ String.ofList taken.flatten)
        :: fillFrom f bound false left

/-- The lines of a text; an empty text has none. -/
def fill (f : Filling) (s : String) : List String :=
  let chunks := if f.atHyphens then hyphenChunks s else wordChunks s
  fillFrom f (chunks.flatten.length + 1) true chunks

end PluginHelp.Help
