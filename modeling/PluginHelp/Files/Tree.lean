/-
Trees of files.

A file is known by its text, or by the fact that its bytes are none.  The names in a folder are
unique.
-/
import PluginHelp.Table

namespace PluginHelp

/-- A file or a folder. -/
inductive Node where
  /-- A file; its text, if its bytes are one. -/
  | file (text : Option String)
  | folder (children : List (String × Node))
deriving Inhabited

namespace Node

/-- The node that a way leads to. -/
def find? : Node → (way : List String) → Option Node
  | node, [] => some node
  | folder children, name :: way =>
    match Table.get? children name with
    | some child => child.find? way
    | none => none
  | file _, _ :: _ => none

/-- Puts a node where a way leads, and folders on the way to it. -/
def put (new : Node) : Node → (way : List String) → Node
  | _, [] => new
  | folder children, name :: way =>
    folder (Table.set children name (put new ((Table.get? children name).getD (folder [])) way))
  | file _, name :: way => folder [(name, put new (folder []) way)]

/-- Whether a node is a folder. -/
def isFolder : Node → Bool
  | folder _ => true
  | file _ => false

/-- The text of the file that a way leads to: nothing if there is no file. -/
def file? (root : Node) (way : List String) : Option (Option String) :=
  match root.find? way with
  | some (file text) => some text
  | _ => none

end Node

end PluginHelp
