import NoteIndex.Query.Basic
import NoteIndex.Record

/-!
# Results of queries

Rows shaped by the query. A row of a table begins with the note's identifier under the name `id`; a
column that comes again keeps its first place and takes the later value.
-/

namespace NoteIndex.Query

structure ListRow where
  id : String
  title : String
  path : String
  deriving DecidableEq, Repr

structure TaskRow where
  id : String
  title : String
  tasks : List Block
  deriving DecidableEq, Repr

inductive Results where
  | list (rows : List ListRow)
  | table (rows : List (Table Value))
  | task (rows : List TaskRow)
  | count (n : Nat)

/-- What running the text of a query comes to. A failed query has the empty list for results. -/
structure Outcome where
  results : Results
  error : Option Error

def ListRow.ofRecord (r : Record) : ListRow := ⟨r.id, r.title, r.path⟩

/-- The identifier that a row of a table tells: its cell `id`, if there is text in it. -/
def rowId? (row : Table Value) : Option String :=
  match row.find? "id" with
  | some (.string id) => some id
  | _ => none

def ListRow.toJson (r : ListRow) : Json :=
  .object [("id", .string r.id), ("title", .string r.title), ("path", .string r.path)]

def taskJson (b : Block) : Json :=
  .object [("id", .string b.id), ("content", .string b.content), ("checked", .bool b.isChecked),
    ("createdAt", .ofOption (fun t => .string t.text) b.createdAt),
    ("completedAt", .ofOption (fun t => .string t.text) b.completedAt)]

def TaskRow.toJson (r : TaskRow) : Json :=
  .object
    [("id", .string r.id), ("title", .string r.title), ("tasks", .array (r.tasks.map taskJson))]

namespace Results

/-- The number of rows, or the count. -/
def size : Results → Nat
  | .list rows => rows.length
  | .table rows => rows.length
  | .task rows => rows.length
  | .count n => n

def toJson : Results → Json
  | .list rows => .array (rows.map ListRow.toJson)
  | .table rows => .array (rows.map fun row => .object (Value.entriesJson row.entries))
  | .task rows => .array (rows.map TaskRow.toJson)
  | .count n => .object [("count", .ofNat n)]

end Results

namespace Outcome

def ok (results : Results) : Outcome := ⟨results, none⟩

def failed (e : Error) : Outcome := ⟨.list [], some e⟩

/-- What a query that has been run comes to, or one that could not be. -/
def ofResult : Except Error Results → Outcome
  | .ok results => .ok results
  | .error e => .failed e

def toJson (o : Outcome) : Json :=
  .object (("results", o.results.toJson) :: match o.error with
    | some e => [("error", .string e.message)]
    | none => [])

end Outcome

end NoteIndex.Query
