/-
Paths that are followed through a tree of files.

A path is followed part by part, and every part but the last must lead to a folder that is there.  In
particular two dots after the name of a file lead nowhere.
-/
import PluginHelp.Fault
import PluginHelp.Files.Path
import PluginHelp.Files.Tree

namespace PluginHelp

/-- A tree of files, and the way to the folder in which one works. -/
structure Disk where
  root : Node
  place : List String

namespace Disk

/-- How many bytes a name may have. -/
def longestName : Nat :=
  255

/-- Follows the parts of a path, from a way on. -/
def follow (root : Node) (way : List String) : (parts : List String) → Except Cause (List String)
  | [] => .ok way
  | part :: parts =>
    match root.find? way with
    | none => .error .noSuchFile
    | some (.file _) => .error .notDirectory
    | some (.folder _) =>
      if longestName < part.utf8ByteSize then .error .longFileName
      else follow root (Path.step way part) parts

/-- The way that a path takes; the empty path takes none. -/
def locate (d : Disk) (path : String) : Except Cause (List String) :=
  if path == "" then .error .noSuchFile
  else follow d.root (Path.startOf d.place path) (Path.parts path)

/-- What a path leads to. -/
def node? (d : Disk) (path : String) : Option Node :=
  (d.locate path).toOption.bind d.root.find?

/-- Whether a path leads to a folder. -/
def hasFolder (d : Disk) (path : String) : Bool :=
  (d.node? path).any (·.isFolder)

/-- The text of the file that a path leads to: nothing if there is no file. -/
def file? (d : Disk) (path : String) : Option (Option String) :=
  (d.locate path).toOption.bind d.root.file?

/-- The path of a way, seen from the folder in which one works, if it lies there. -/
def inside? (d : Disk) (way : List String) : Option String :=
  if d.place.isPrefixOf way then some (Path.ofNames (way.drop d.place.length)) else none

/-- The disk with a folder where a path leads; it may already be there. -/
def makeFolder (d : Disk) (path : String) : Except Cause Disk := do
  if d.hasFolder path then
    return d
  let way ← d.locate path
  if (d.root.find? way).isSome then
    .error .nameTaken
  return { d with root := .put (.folder []) d.root way }

/-- The disk with a file where a path leads, and the way to it. -/
def writeFile (d : Disk) (path text : String) : Except Cause (List String × Disk) := do
  if path.toList.contains '\x00' then
    .error .badFileName
  let way ← d.locate path
  if (d.root.find? way).any (·.isFolder) then
    .error .isDirectory
  return (way, { d with root := .put (.file (some text)) d.root way })

end Disk

end PluginHelp
