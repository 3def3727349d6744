import NoteIndex.Catalog
import NoteIndex.CommandLine.Arguments
import NoteIndex.CommandLine.Listing
import NoteIndex.Index.Validation
import NoteIndex.Query.Run
import NoteIndex.Vault

/-!
# What commands report

A command looks at the notes of a vault by way of their index, and reports lines of output, lines of
trouble, and whether it went well. What it does to the cached index is in the catalog it gives back.
-/

namespace NoteIndex.CommandLine

/-- Why a command failed. -/
inductive Failure where
  | told (why : String)
  /-- The program stopped on the way. -/
  | crash
  deriving DecidableEq, Repr

structure Report where
  output : List String
  trouble : List String
  failure : Option Failure
  deriving DecidableEq, Repr

namespace Report

def ok (output : List String) : Report := ⟨output, [], none⟩

def failed (why : String) : Report := ⟨[], [], some (.told why)⟩

def crashed : Report := ⟨[], [], some .crash⟩

end Report

/-- A list of notes in a format; `empty` says that there are none, `noun` what they are. -/
def listing (format : Format) (empty noun : String) (rs : List Record) : Report :=
  match format with
  | .json => .ok [dataLine (listingJson rs)]
  | .human => .ok (if rs.isEmpty then [empty] else noteTable noun rs)

/-- What building the index came to, note by note if `verbose`. -/
def indexReport (full verbose : Bool) (vault : Vault) (result : BuildResult) : Report where
  output :=
    (if full then "Rebuilding index..." else "Updating index...") ::
      (if verbose then vault.book.ids.map ("  indexed: " ++ ·) else []) ++
      ["Indexed " ++ Nat.repr result.indexed ++ " notes" ++
        (if result.fromSnapshot then " (from snapshot)" else "")]
  trouble :=
    if vault.errors.isEmpty then []
    else vault.errors.map ("  " ++ ·.line) ++
      [Nat.repr vault.errors.length ++ " file(s) could not be loaded"]
  failure := none

def queryReport (format : Format) : Option Query.Outcome → Report
  | none => .crashed
  | some o =>
    { output :=
        match format, o.error with
        | .json, _ => [o.toJson.indented]
        | .human, some _ => []
        | .human, none => resultLines o.results
      trouble := []
      failure := o.error.map fun e => .told ("query failed: " ++ e.message) }

def tagListing (counts : Bool) (t : String × Nat) : Json :=
  .object (("name", .string t.1) :: if counts then [("count", .ofNat t.2)] else [])

def tagsReport (counts : Bool) (format : Format) (tags : List (String × Nat)) : Report :=
  match format with
  | .json => .ok [dataLine (.array (tags.map (tagListing counts)))]
  | .human =>
    .ok (if tags.isEmpty then ["No tags found."]
      else tags.map fun t => if counts then t.1 ++ " (" ++ Nat.repr t.2 ++ ")" else t.1)

def candidateLines (r : Record) : List String :=
  ("  " ++ noteLine r) ::
    if r.tags.toList.isEmpty then [] else ["      tags: " ++ ", ".intercalate r.tags.toList]

def ambiguityLines (name : String) (rs : List Record) : List String :=
  ("Ambiguous: '" ++ name ++ "' matches " ++ Nat.repr rs.length ++ " notes:") ::
    rs.flatMap candidateLines ++ ["", "Use the note ID to specify which note you mean."]

/-- Reports on the note of a name, or why it is not one. -/
def withNote (x : Index) (name : String) (report : Record → Report) : Report :=
  match x.resolve name with
  | .unique r => report r
  | .ambiguous rs => ⟨[], ambiguityLines name rs, some (.told "ambiguous note identifier")⟩
  | .notFound => .failed ("note not found: '" ++ name ++ "'")

def showReport (format : Format) (x : Index) (r : Record) : Report :=
  match format with
  | .json => .ok [dataLine (noteJson r (x.backlinksTo r.id))]
  | .human => .ok (noteLines r (x.backlinksTo r.id))

/-- Records that were modified later come first. -/
def newestFirst (rs : List Record) : List Record :=
  sortStable (fun a b => b.modified.compare a.modified == .lt) rs

/-- What is wrong with the vault and its index. Warnings do not make the check fail, and are not
looked at if `quiet`. -/
def checkReport (quiet : Bool) (vault : Vault) (x : Index) : Report :=
  let issues := x.validate
  let warnings := if quiet then 0 else issues.warnings.length
  let errors := issues.errors.length + vault.errors.length
  let shown := issues.bySeverity.filter fun i => !(quiet && i.isWarning)
  if x.records.isEmpty && vault.errors.isEmpty then .ok ["No notes found."]
  else if errors = 0 ∧ warnings = 0 then .ok ["All " ++ Nat.repr x.size ++ " notes OK."]
  else
    { output :=
        vault.errors.map ("error: " ++ ·.line) ++ shown.map Issue.line ++
          ["", "Found " ++ countLine (errors + warnings) "issue" ++ ": " ++
            countLine errors "error" ++ ", " ++ countLine warnings "warning"]
      trouble := []
      failure := if errors = 0 then none else some (.told "check failed") }

def Shell.script (words : List String) : Shell → List String
  | .bash => ["complete -W '" ++ " ".intercalate words ++ "' notedex"]
  | .elvish => ["set edit:completion:arg-completer[notedex] = \x7b|@words| put " ++
      " ".intercalate words ++ " \x7d"]
  | .fish => words.map fun w => "complete -c notedex -n __fish_use_subcommand -a " ++ w
  | .powershell => ["Register-ArgumentCompleter -Native -CommandName notedex -ScriptBlock \x7b '" ++
      "', '".intercalate words ++ "' \x7d"]
  | .zsh => ["compctl -k '(" ++ " ".intercalate words ++ ")' notedex"]

/-- Runs a command on a vault, with the store that caches its index if there is one. -/
def Command.run (c : Command) (verbose : Bool) (vault : Vault) (store : Option Store) :
    Report × Catalog :=
  let fresh := Catalog.fresh store
  let onIndex (report : Index → Report) : Report × Catalog :=
    let built := (fresh.init vault.book).1
    (report built.index, built)
  match c with
  | .index full =>
    let (built, result) := fresh.build vault.book (if full then none else fresh.cached)
    (indexReport full verbose vault result, built)
  | .query text format =>
    let (after, outcome) := fresh.execute vault.book text
    (queryReport format outcome, after)
  | .search text format =>
    onIndex fun x => listing format "No matching notes found." "result" (x.search text)
  | .tags counts format => onIndex fun x => tagsReport counts format x.allTags
  | .show note format => onIndex fun x => withNote x note (showReport format x)
  | .backlinks note format =>
    onIndex fun x => withNote x note fun r =>
      listing format "No backlinks found." "backlink" (newestFirst (x.backlinksTo r.id))
  | .linking target format =>
    onIndex fun x => listing format "No linking notes found." "note" (x.linkingTo target)
  | .matching key value format =>
    onIndex fun x =>
      listing format "No matching notes found." "note" (x.withEntry key (Query.parseValue value))
  | .check quiet => onIndex (checkReport quiet vault)
  | .completions shell => (.ok (shell.script (Verb.all.map Verb.name)), fresh)

end NoteIndex.CommandLine
