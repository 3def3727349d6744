import NoteIndex.Json.Writer
import NoteIndex.Link
import NoteIndex.Query.Result
import NoteIndex.Value.Written

/-!
# Lists for reading

Notes and the results of queries as lines of text. Long cells are cut, and end in an ellipsis then.
-/

namespace NoteIndex.CommandLine

/-- Text of at most `width` characters, the last of them an ellipsis where some is cut. -/
def cut (width : Nat) (s : String) : String :=
  if s.length ≤ width then s else String.ofList (s.toList.take (width - 1)) ++ "…"

/-- Text filled up with blanks to `width` characters. -/
def pad (width : Nat) (s : String) : String :=
  s ++ String.ofList (List.replicate (width - s.length) ' ')

def rule (width : Nat) : String := String.ofList (List.replicate width '-')

/-- How many of something there are. -/
def countLine (n : Nat) (noun : String) : String := Nat.repr n ++ " " ++ noun ++ "(s)"

def idWidth : Nat := 30

def titleWidth : Nat := 40

def columns (id title path : String) : String :=
  pad idWidth id ++ "  " ++ pad titleWidth title ++ "  " ++ path

/-- A table of notes, and how many they are. -/
def noteTable (noun : String) (rs : List Record) : List String :=
  columns "ID" "Title" "Path" :: columns (rule idWidth) (rule titleWidth) "----" ::
    rs.map (fun r => columns (cut idWidth r.id) (cut titleWidth r.title) r.path) ++
    ["", countLine rs.length noun]

/-- An answer in JSON. -/
def dataLine (j : Json) : String := (Json.object [("data", j)]).indented

def listingJson (rs : List Record) : Json :=
  .array (rs.map fun r => (Query.ListRow.ofRecord r).toJson)

def listLine (r : Query.ListRow) : String :=
  if r.path.isEmpty then r.id ++ "  " ++ r.title
  else r.id ++ "  " ++ r.title ++ "  (" ++ r.path ++ ")"

/-- A cell of a table; nothing is written as a dash. -/
def cell : Value → String
  | .null => "-"
  | v => cut titleWidth v.text

def tableLine (cells : List String) : String := " | ".intercalate cells

/-- The line below the names of columns, three dashes for a column at least. -/
def tableRule (names : List String) : String :=
  "-|-".intercalate (names.map fun name => rule (max name.length 3))

def taskLine (b : Block) : String :=
  "  - [" ++ (if b.isChecked then "x" else " ") ++ "] " ++ b.content

def taskLines (r : Query.TaskRow) : List String :=
  (r.title ++ " (" ++ r.id ++ ")") :: r.tasks.map taskLine

/-- Rows, and how many they are; or `empty` where there are none. -/
def rowLines {α : Type} (empty noun : String) (lines : α → List String) (rows : List α) :
    List String :=
  if rows.isEmpty then [empty] else rows.flatMap lines ++ ["", countLine rows.length noun]

def resultLines : Query.Results → List String
  | .list rows => rowLines "No matching notes found." "note" (fun r => [listLine r]) rows
  | .table [] => ["No matching notes found."]
  | .table (first :: rows) =>
    tableLine first.keys :: tableRule first.keys ::
      rowLines "" "row" (fun row => [tableLine (row.values.map cell)]) (first :: rows)
  | .task rows => rowLines "No notes with open tasks found." "note" taskLines rows
  | .count n => [Nat.repr n]

/-- Lines under a heading, set off by an empty line; nothing where there are none. -/
def headed (heading : String) (lines : List String) : List String :=
  if lines.isEmpty then [] else "" :: heading :: lines.map ("  " ++ ·)

/-- A line of a note's description, left out where there is nothing to say. -/
def fieldLine (name value : String) : List String :=
  if value.isEmpty then [] else [pad 10 name ++ value]

def noteLine (r : Record) : String := r.id ++ " - " ++ r.title

/-- All about a note, and which notes link to it. -/
def noteLines (r : Record) (backlinks : List Record) : List String :=
  [pad 10 "Title:" ++ r.title, pad 10 "ID:" ++ r.id] ++
    fieldLine "Path:" r.path ++
    [pad 10 "Created:" ++ r.created.minuteText, pad 10 "Modified:" ++ r.modified.minuteText] ++
    fieldLine "Tags:" (", ".intercalate r.tags.toList) ++
    [pad 10 "Words:" ++ Nat.repr r.wordCount, pad 10 "Blocks:" ++ Nat.repr r.blockCount] ++
    headed "Frontmatter:" (r.frontmatter.entries.map fun e => e.1 ++ ": " ++ e.2.text) ++
    headed "Links:" (r.links.map Link.text) ++
    headed "Backlinks:" (backlinks.map noteLine)

def noteJson (r : Record) (backlinks : List Record) : Json :=
  .object (r.jsonFields ++ [("backlinks", listingJson backlinks)])

end NoteIndex.CommandLine
