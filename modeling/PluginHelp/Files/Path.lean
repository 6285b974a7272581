/-
Paths, as texts and as the names on the way.
-/
import PluginHelp.Text.Search

namespace PluginHelp.Path

/-- A path without the extension of its last name, and that extension.  Dots at the start of a name
begin no extension. -/
def splitExtension (path : String) : String × String :=
  let backwards := path.toList.reverse
  let extension := backwards.takeWhile fun c => c != '.' && c != '/'
  match backwards.drop extension.length with
  | '.' :: stem =>
    if (stem.takeWhile (· != '/')).any (· != '.') then
      (String.ofList stem.reverse, String.ofList ('.' :: extension.reverse))
    else
      (path, "")
  | _ => (path, "")

/-- A path without its extension. -/
def stem (path : String) : String :=
  (splitExtension path).1

/-- A path below another one; an absolute path is below none. -/
def join (folder path : String) : String :=
  if folder == "" || Text.beginsWith "/" path then path
  else if folder.toList.getLast? == some '/' then folder ++ path
  else folder ++ "/" ++ path

/-- Whether a path begins at the root. -/
def isAbsolute (path : String) : Bool :=
  Text.beginsWith "/" path

/-- The parts of a path between its slashes. -/
def parts (path : String) : List String :=
  (Text.splitAt '/' path.toList).map String.ofList

/-- The way on which a part leads on: a dot stays where it is, and two dots go back. -/
def step (way : List String) (part : String) : List String :=
  if part == "" || part == "." then way
  else if part == ".." then way.dropLast
  else way ++ [part]

/-- The way that begins at the root, or at a place for a path that does not. -/
def startOf (place : List String) (path : String) : List String :=
  if isAbsolute path then [] else place

/-- The way that a path takes by its words alone, seen from a place. -/
def walk (place : List String) (path : String) : List String :=
  (parts path).foldl step (startOf place path)

/-- The path that takes the given names. -/
def ofNames (way : List String) : String :=
  "/".intercalate way

/-- A path without the slashes at its end. -/
def withoutEndSlashes (path : String) : String :=
  String.ofList ((path.toList.reverse.dropWhile (· == '/')).reverse)

end PluginHelp.Path
