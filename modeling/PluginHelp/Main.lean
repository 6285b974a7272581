/-
The program.

The files of the plugin are read into a tree, the help pages are built in it, and what has changed is
written back.
-/
import PluginHelp.CommandLine

namespace PluginHelp.Main

/-- Whether a path leads to a folder; a path that leads nowhere does not. -/
def isFolder (path : String) : IO Bool := do
  try
    return path != "" && (← (← IO.FS.realPath path).isDir)
  catch _ =>
    return false

/-- The children of a folder, in any order. -/
partial def readChildren (path : String) : IO (List (String × Node)) := do
  let folder ← IO.FS.realPath path
  let mut children := []
  for entry in ← folder.readDir do
    if ← entry.path.isDir then
      children := (entry.fileName, .folder (← readChildren entry.path.toString)) :: children
    else
      let text := String.fromUTF8? (← IO.FS.readBinFile entry.path)
      children := (entry.fileName, .file text) :: children
  return children

/-- The way to the working directory. -/
def placeOf : IO (List String) := do
  return Path.walk [] (← IO.currentDir).toString

/-- The starts of a path, each a part longer than the one before. -/
def startsOf (path : String) : List String :=
  let parts := Path.parts path
  (List.range parts.length).map fun i => Path.ofNames (parts.take (i + 1))

/-- The disk with the folders on the way of a path and all that lies below it, as far as it is
there. -/
def readDisk (path : String) : IO Disk := do
  let place ← placeOf
  let mut root := Node.put (.folder []) (.folder []) place
  for start in startsOf path do
    let way := Path.walk place start
    if (root.find? way).isNone && (← isFolder start) then
      root := .put (.folder []) root way
  if ← isFolder path then
    root := .put (.folder (← readChildren path)) root (Path.walk place path)
  return { root, place }

/-- The folder that is asked for, if the arguments are right as far as can be told without files. -/
def folderOf? (given : List String) : Option String :=
  match CommandLine.request (fun _ => .ok ()) given with
  | .document folder => some folder
  | _ => none

end PluginHelp.Main

open PluginHelp in
/-- Runs the program and gives its exit status. -/
def main (given : List String) : IO UInt32 := do
  let folder := (Main.folderOf? given).getD "."
  let desk : Build.Desk := { disk := ← Main.readDisk folder }
  let outcome := CommandLine.run [] given desk
  for warning in outcome.warnings do
    IO.eprintln ("warning: " ++ warning.report)
  let docFolder := Path.join folder "doc"
  if !desk.disk.hasFolder docFolder && outcome.state.disk.hasFolder docFolder then
    IO.FS.createDirAll docFolder
  for (way, text) in Build.changes desk.disk outcome.state do
    IO.FS.writeFile ("/" ++ Path.ofNames way) text
  match outcome.result with
  | .ok reply =>
    IO.print reply.output
    IO.eprint reply.errors
    return reply.status.toUInt32
  | .error fault =>
    IO.eprintln fault.report
    return 1
