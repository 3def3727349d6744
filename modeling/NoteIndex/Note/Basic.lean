import NoteIndex.Collection.Keyed
import NoteIndex.Time.Timestamp

/-!
# Notes

A note has text of its own or a list of blocks. Where it has blocks these are its text, joined line
by line, and its own is left aside.
-/

namespace NoteIndex

inductive BlockKind where
  | text | heading | bullet | numbered | quote | code | divider | task
  /-- A kind that this library does not know. -/
  | other
  deriving DecidableEq, Repr

namespace BlockKind

def name : BlockKind → String
  | .text => "text"
  | .heading => "heading"
  | .bullet => "bullet"
  | .numbered => "numbered"
  | .quote => "quote"
  | .code => "code"
  | .divider => "divider"
  | .task => "task"
  | .other => "other"

/-- Tasks have three names; a name that means nothing is `other`. -/
def ofName (s : String) : BlockKind :=
  match s with
  | "text" => .text
  | "heading" => .heading
  | "bullet" => .bullet
  | "numbered" => .numbered
  | "quote" => .quote
  | "code" => .code
  | "divider" => .divider
  | "task" => .task
  | "todo" => .task
  | "checkbox" => .task
  | _ => .other

theorem ofName_name (k : BlockKind) : ofName k.name = k := by cases k <;> rfl

end BlockKind

structure Block where
  id : String
  kind : BlockKind
  content : String
  checked : Option Bool
  createdAt : Option Timestamp
  completedAt : Option Timestamp
  deriving DecidableEq, Repr

namespace Block

def plain (id : String) (kind : BlockKind) (content : String) : Block :=
  ⟨id, kind, content, none, none, none⟩

def task (id content : String) (checked : Bool) : Block :=
  ⟨id, .task, content, some checked, none, none⟩

def isChecked (b : Block) : Bool := b.checked.getD false

def isTask (b : Block) : Bool := b.kind == .task

def isOpenTask (b : Block) : Bool := b.isTask && !b.isChecked

end Block

structure Note where
  id : String
  title : String
  path : String
  content : String
  blocks : List Block
  created : Timestamp
  modified : Timestamp
  deriving DecidableEq, Repr

namespace Note

def tasks (n : Note) : List Block := n.blocks.filter Block.isTask

def hasOpenTasks (n : Note) : Bool := n.blocks.any Block.isOpenTask

/-- The text that the note is indexed by. -/
def text (n : Note) : List Char :=
  if n.blocks.isEmpty then n.content.toList
  else (['\n'] : List Char).intercalate (n.blocks.map fun b => b.content.toList)

end Note

/-- The notes that an index is built over, by identifier, in the order they were added. -/
abbrev Notebook := Keyed Note.id

namespace Notebook

abbrev add (b : Notebook) (n : Note) : Notebook := Keyed.add b n

def ofNotes (ns : List Note) : Notebook := .ofValues ns

def notes (b : Notebook) : List Note := b.values

def ids (b : Notebook) : List String := b.keys

end Notebook

end NoteIndex
