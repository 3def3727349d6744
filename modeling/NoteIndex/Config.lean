import NoteIndex.Disk.Resolve
import NoteIndex.Text.Utf8
import NoteIndex.Toml.Reader

/-!
# Settings

Settings are read from a TOML file; without the file they have their usual values, and settings of
unknown names are passed over. What the command line says about where the notes are goes before
what the settings say.
-/

namespace NoteIndex

structure Config where
  /-- The folder of the notes. -/
  dir : Option String
  /-- The export that holds the notes. -/
  notes : Option String
  /-- Whether the index of a folder is cached. -/
  snapshot : Bool
  logLevel : Option String
  deriving DecidableEq, Repr

namespace Config

def usual : Config := ⟨none, none, true, none⟩

inductive Error where
  | unreadable (why : ReadError)
  | malformed
  deriving DecidableEq, Repr

/-- What could not be done about a file of settings. -/
def Error.text : Error → String
  | .unreadable _ => "failed to read config file"
  | .malformed => "failed to parse config file"

def Error.cause : Error → String
  | .unreadable why => why.message
  | .malformed => "not a TOML document of known settings"

/-- A setting that is text, if it is there. -/
def text? (name : String) (es : Toml.Entries) : Option (Option String) :=
  match Toml.find? name es with
  | none => some none
  | some (.string s) => some (some s)
  | some _ => none

/-- A setting that is a truth value, or its usual value. -/
def flag? (name : String) (usual : Bool) (es : Toml.Entries) : Option Bool :=
  match Toml.find? name es with
  | none => some usual
  | some (.bool b) => some b
  | some _ => none

def ofEntries? (es : Toml.Entries) : Option Config := do
  pure {
    dir := ← text? "dir" es
    notes := ← text? "notes" es
    snapshot := ← flag? "snapshot" usual.snapshot es
    logLevel := ← text? "log_level" es }

def ofBytes (bytes : List UInt8) : Except Error Config :=
  match Text.decodeUtf8 bytes with
  | .error _ => .error (.unreadable .notText)
  | .ok text =>
    match (Toml.parse? text).bind ofEntries? with
    | some c => .ok c
    | none => .error .malformed

/-- The settings in a file. Where nothing stands at its path they are the usual ones. -/
def load (d : Disk) (path : String) : Except Error Config :=
  match d.node? path with
  | none => .ok usual
  | some _ =>
    match d.bytes path with
    | .ok bytes => ofBytes bytes
    | .error why => .error (.unreadable why)

end Config

/-- Where the notes are. -/
inductive Location where
  /-- In the markdown files of a folder. -/
  | folder (path : String)
  /-- In an export. -/
  | exported (path : String)
  deriving DecidableEq, Repr

namespace Location

def path : Location → String
  | .folder p => p
  | .exported p => p

/-- Goes down a path by names, with one slash before them. -/
def below (path names : String) : String :=
  if path.isEmpty ∨ path.toList.getLast? = some '/' then path ++ names else path ++ "/" ++ names

/-- The file that caches the index of a folder. -/
def cachePath? : Location → Option String
  | .folder p => some (below p ".index/notedex.db")
  | .exported _ => none

/-- Where the notes are, given what the command line says: there and in the settings an export goes
before a folder. The working folder is the last resort. -/
def choose (c : Config) (dir notes : Option String) : Location :=
  match notes, dir, c.notes, c.dir with
  | some p, _, _, _ => .exported p
  | none, some p, _, _ => .folder p
  | none, none, some p, _ => .exported p
  | none, none, none, some p => .folder p
  | none, none, none, none => .folder "."

end Location

end NoteIndex
