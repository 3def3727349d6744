import NoteIndex.CommandLine.Report
import NoteIndex.Config
import NoteIndex.Disk.Change
import NoteIndex.Index.StoreFile

/-!
# Running a command line

From the arguments and a disk to what the program prints, how it ends, and what it leaves on the
disk. Settings are read once the arguments make sense, the notes once it is known where they are,
and the cache of the index after the notes. A cache that cannot be used only costs the cache.
-/

namespace NoteIndex.CommandLine

/-- How a run ends. -/
inductive Status where
  | success | failure | misuse | crash
  deriving DecidableEq, Repr

def Status.code : Status → Nat
  | .success => 0
  | .failure => 1
  | .misuse => 2
  | .crash => 101

def Failure.status : Failure → Status
  | .told _ => .failure
  | .crash => .crash

/-- What is said of a failure. What a program says that stops on the way is left out. -/
def Failure.lines : Failure → List String
  | .told why => ["error: " ++ why]
  | .crash => []

structure Outcome where
  status : Status
  output : List String
  trouble : List String
  /-- A file to be written, and what it is to hold. -/
  cache : Option (String × Store)

/-- Lines as text, each with its end. -/
def textOf (lines : List String) : String := String.join (lines.map (· ++ "\n"))

def versionLine : String := "notedex 0.1.0"

def usageLines : List String :=
  ["notedex - a metadata index and query engine for markdown notes", "",
    "Usage: notedex [OPTIONS] <COMMAND>", "",
    "Commands: " ++ ", ".intercalate (Verb.all.map Verb.name ++ ["help"]),
    "Options: -d, --dir <DIR>; --notes <NOTES>; -v, --verbose; -h, --help; -V, --version"]

namespace Outcome

def stopped : Stop → Outcome
  | .help => ⟨.success, usageLines, [], none⟩
  | .version => ⟨.success, [versionLine], [], none⟩
  | .usage => ⟨.misuse, [], usageLines, none⟩

def failed (why : String) : Outcome := ⟨.failure, [], ["error: " ++ why], none⟩

def ofReport (r : Report) (cache : Option (String × Store)) : Outcome where
  status := (r.failure.map Failure.status).getD .success
  output := r.output
  trouble := r.trouble ++ (r.failure.map Failure.lines).getD []
  cache

/-- The disk after a run. -/
def leave (o : Outcome) (d : Disk) : Disk :=
  match o.cache with
  | none => d
  | some (path, store) =>
    (d.write? path ⟨.ok (Text.encodeUtf8 store.encode), none, default⟩).getD d

end Outcome

/-- The file of settings, below the folder where settings are kept. -/
def settingsPath (home : String) : String := home ++ "/notedex/config.toml"

def loadVault (d : Disk) : Location → Except Vault.Error Vault
  | .folder path => Vault.ofFolder d path
  | .exported path => Vault.ofExport d path

/-- Runs a command on the notes of a location. -/
def runAt (d : Disk) (location : Location) (snapshot verbose : Bool) (c : Command) : Outcome :=
  match loadVault d location with
  | .error e => .failed ("failed to load notes from " ++ location.path ++ ": " ++ e.message)
  | .ok vault =>
    let path := if snapshot then location.cachePath? else none
    let (report, catalog) := c.run verbose vault (path.bind (Store.open? d))
    .ofReport report (path.bind fun path => catalog.store.map fun store => (path, store))

/-- What the arguments and the settings ask for, unless they end the run. -/
def plan (d : Disk) (home : String) (args : List String) : Except Outcome (Invocation × Config) :=
  match parse args with
  | .error stop => .error (.stopped stop)
  | .ok call =>
    match Config.load d (settingsPath home) with
    | .error e => .error (.failed (e.text ++ ": " ++ settingsPath home ++ ": " ++ e.cause))
    | .ok config => .ok (call, config)

def placeOf (call : Invocation) (config : Config) : Location :=
  .choose config call.dir call.notes

/-- Runs the program, given the folder where settings are kept. -/
def run (d : Disk) (home : String) (args : List String) : Outcome :=
  match plan d home args with
  | .error o => o
  | .ok (call, config) =>
    match call.command with
    | .completions shell => .ofReport (.ok (shell.script (Verb.all.map Verb.name))) none
    | c => runAt d (placeOf call config) config.snapshot call.verbose c

end NoteIndex.CommandLine
