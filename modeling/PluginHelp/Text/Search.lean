/-
Finding and replacing fixed pieces of text.
-/
namespace PluginHelp.Text

/-- Whether `piece` occurs in a text. -/
def hasInfix (piece : List Char) : List Char → Bool
  | [] => piece.isEmpty
  | c :: rest => piece.isPrefixOf (c :: rest) || hasInfix piece rest

/-- Whether `piece` occurs in `s`. -/
def occursIn (piece s : String) : Bool :=
  hasInfix piece.toList s.toList

/-- Every `old` character of a text turned into `new`. -/
def replaceChar (old new : Char) (s : String) : String :=
  String.ofList (s.toList.map fun c => if c == old then new else c)

/-- The rest of `s` after `head`, if it begins so. -/
def dropHead? (head s : String) : Option String :=
  if head.toList.isPrefixOf s.toList then
    some (String.ofList (s.toList.drop head.toList.length))
  else
    none

/-- Whether `s` begins with `head`. -/
def beginsWith (head s : String) : Bool :=
  head.toList.isPrefixOf s.toList

/-- The pieces of a text between the `sep` characters, of which there is at least one. -/
def splitAt (sep : Char) : List Char → List (List Char)
  | [] => [[]]
  | c :: rest =>
    if c == sep then
      [] :: splitAt sep rest
    else
      match splitAt sep rest with
      | [] => [[c]]
      | piece :: pieces => (c :: piece) :: pieces

end PluginHelp.Text
