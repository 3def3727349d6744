import NoteIndex.Collection.SortedMap
import NoteIndex.Text.Split
import NoteIndex.Time.Timestamp

/-!
# Files and folders

A disk is a tree. A folder lists its entries in ascending order of their names; an entry is a file,
a folder, or a link, which stands for whatever its target leads to. Here a tree is read and
changed along paths that meet no link.
-/

namespace NoteIndex

/-- Names from the topmost folder down. -/
abbrev Path := List String

/-- A path as text, relative to where it starts. -/
def Path.text (p : Path) : String := "/".intercalate p

structure File where
  /-- What the file holds, or why it cannot be read. -/
  contents : Except String (List UInt8)
  /-- When it was made, where the disk keeps that. -/
  created : Option Timestamp
  modified : Timestamp

inductive Node where
  | file (f : File)
  | link (target : String)
  | folder (entries : List (String × Node))

namespace Node

/-- The entries of a folder; anything else has none. -/
def entries : Node → List (String × Node)
  | .folder es => es
  | _ => []

/-- What stands at the end of a path. -/
def at? : Path → Node → Option Node
  | [], n => some n
  | name :: r, n => (SortedMap.lookup name n.entries).bind (at? r)

/-- Rewrites by `f` what stands at the end of a path, if anything. Where the path does not lead
through folders nothing changes. -/
def alter (f : Option Node → Option Node) : Path → Option Node → Option Node
  | [], n => f n
  | name :: r, some (.folder es) => some (.folder (SortedMap.alterEntries name (alter f r) es))
  | _ :: _, n => n

mutual

/-- How many nodes there are in a tree. -/
def count : Node → Nat
  | .file _ => 1
  | .link _ => 1
  | .folder es => countEntries es + 1

def countEntries : List (String × Node) → Nat
  | [] => 0
  | (_, n) :: r => count n + countEntries r

end

end Node

/-- A tree, and the folder in it that relative paths start from. -/
structure Disk where
  root : Node
  here : Path

namespace Disk

/-- A disk that has nothing but its working folder. -/
def fresh (here : Path) : Disk :=
  ⟨here.foldr (fun name n => .folder [(name, n)]) (.folder []), here⟩

/-- Rewrites what stands at the end of a path. The topmost folder stays. -/
def alter (d : Disk) (f : Option Node → Option Node) (p : Path) : Disk :=
  { d with root := (Node.alter f p (some d.root)).getD d.root }

def put (d : Disk) (p : Path) (n : Node) : Disk := d.alter (fun _ => some n) p

end Disk

end NoteIndex
