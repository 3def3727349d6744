import NoteIndex.Disk.Markdown
import NoteIndex.Note.Encoded
import NoteIndex.Note.Markdown
import NoteIndex.Text.Utf8

/-!
# Vaults

Notes come from a folder of markdown files or from an export in JSON. A markdown file becomes a note
that is known by the file's path without its ending; a file that cannot be read as text is reported
and does not keep the others from being read.
-/

namespace NoteIndex

/-- A file that did not become a note. -/
structure LoadError where
  path : String
  message : String
  deriving DecidableEq, Repr

def LoadError.line (e : LoadError) : String := e.path ++ ": " ++ e.message

/-- Text without the mark that some writers put before it. -/
def withoutMark : List Char → List Char
  | '\uFEFF' :: r => r
  | cs => cs

namespace Note

/-- The path of a markdown file without its ending. -/
def idOfPath (path : Path) : String :=
  Path.text (path.dropLast ++ (path.getLast?.bind stem?).toList)

def titleOfPath (path : Path) : String := (path.getLast?.bind stem?).getD ""

def ofText (path : Path) (created modified : Timestamp) (text : List Char) : Note :=
  let id := idOfPath path
  { id
    title := titleOfPath path
    path := Path.text path.dropLast
    content := String.ofList text
    blocks := Block.ofMarkdown id text
    created
    modified }

/-- The note of a file. It was made when it was last changed, if nothing else is known. -/
def ofFile (path : Path) (f : File) : Except LoadError Note :=
  match f.contents with
  | .error reason => .error ⟨path.text, reason⟩
  | .ok bytes =>
    match Text.decodeUtf8 bytes with
    | .error offset => .error ⟨path.text, "invalid UTF-8 at byte " ++ Nat.repr offset⟩
    | .ok text => .ok (ofText path (f.created.getD f.modified) f.modified (withoutMark text))

end Note

structure Vault where
  book : Notebook
  errors : List LoadError

namespace Vault

/-- Why there is no vault at a path. -/
inductive Error where
  | notFound (path : String)
  | notFolder (path : String)
  | unreadable (path : String) (why : ReadError)
  | malformed (path : String)
  deriving DecidableEq, Repr

def Error.message : Error → String
  | .notFound path => "notes directory not found: " ++ path
  | .notFolder path => "path is not a directory: " ++ path
  | .unreadable path why => "I/O error for " ++ path ++ ": " ++ why.message ++ ": " ++ why.message
  | .malformed path => "invalid notes export " ++ path ++ ": not a JSON array of notes"

def ofFiles (files : List (Path × File)) : Vault :=
  let loaded := files.map fun e => Note.ofFile e.1 e.2
  { book := Notebook.ofNotes (loaded.filterMap Except.toOption)
    errors := loaded.filterMap fun
      | .error e => some e
      | .ok _ => none }

/-- The markdown files of the folder that a path leads to. -/
def scan (d : Disk) (path : String) : Except Error (List (Path × File)) :=
  match d.resolve path with
  | .found p => if d.isFolder p then .ok (d.markdownFiles p) else .error (.notFolder path)
  | _ => .error (.notFound path)

def ofFolder (d : Disk) (path : String) : Except Error Vault := (scan d path).map ofFiles

/-- Reads an export. A later note takes the place of an earlier one of its identifier. -/
def ofExport (d : Disk) (path : String) : Except Error Vault :=
  match d.bytes path with
  | .error .missing => .error (.notFound path)
  | .error why => .error (.unreadable path why)
  | .ok bytes =>
    match Text.decodeUtf8 bytes with
    | .error _ => .error (.unreadable path .notText)
    | .ok text =>
      match Note.decodeAll? (String.ofList text) with
      | some notes => .ok ⟨Notebook.ofNotes notes, []⟩
      | none => .error (.malformed path)

end Vault

end NoteIndex
