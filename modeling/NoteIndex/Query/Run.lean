import NoteIndex.Catalog
import NoteIndex.Collection.StableSort
import NoteIndex.Index.Reading
import NoteIndex.Query.Reading
import NoteIndex.Query.Result

/-!
# Running queries

The records that a query matches are those from its sources that meet all its conditions, in its
order, up to its limit; its shape says what to tell about them. Only a list of tasks needs the notes
themselves, and fails where one is gone.

Values of different kinds need not stand in any order: to sort many records by them may stop the
program. Then there is no answer at all, not even an error.
-/

namespace NoteIndex.Query

namespace Condition

/-- Whether the operator holds between a property and the literal. One that is not defined only
differs. -/
def holds (c : Condition) : Option Value → Bool
  | none => c.operator == .notEq
  | some v =>
    match c.operator with
    | .present => v.isPresent
    | .eq => v.looseEq c.value
    | .notEq => !v.looseEq c.value
    | .gt => v.naturalCompare c.value == .gt
    | .lt => v.naturalCompare c.value == .lt
    | .gtEq => v.naturalCompare c.value != .lt
    | .ltEq => v.naturalCompare c.value != .gt
    | .contains => v.containsText c.value.text
    | .oneOf =>
      match c.value with
      | .list items => items.any fun item => item.same v
      | _ => false

def accepts (c : Condition) (r : Record) : Bool := c.holds (r.property? c.field) != c.negated

end Condition

/-- The identifiers of the notes that a source stands for. -/
def Source.ids (x : Index) : Source → List String
  | .tag t => (x.byTag t.text).map Record.id
  | .path start =>
    (x.records.values.filter fun r => Text.beginsWith start.toList r.path.toList).map Record.id

/-- The records of the sources in the order of the index. -/
def candidates (x : Index) (sources : List Source) : List Record :=
  if sources.isEmpty then x.records.values
  else
    let selected := sources.flatMap (Source.ids x)
    x.records.values.filter fun r => selected.contains r.id

/-- Whether a property comes before another. One that is not defined comes last either way. -/
def comesBefore (descending : Bool) : Option Value → Option Value → Bool
  | some a, some b =>
    if descending then b.naturalCompare a == .lt else a.naturalCompare b == .lt
  | some _, none => true
  | none, _ => false

/-- The records in the natural order of a property, where they can be put in order. -/
def sortRecords (o : Order) (rs : List Record) : Option (List Record) :=
  (sortBy? (fun a b => comesBefore o.descending a.1 b.1)
    (rs.map fun r => (r.property? o.field, r))).map fun sorted => sorted.map Prod.snd

/-- The records from the sources that meet all conditions, in the order of the index. -/
def selected (x : Index) (q : Query) : List Record :=
  (candidates x q.sources).filter fun r => q.conditions.all fun c => c.accepts r

/-- The records in the order that is asked for, if any is. -/
def arranged (q : Query) (rs : List Record) : Option (List Record) :=
  match q.order with
  | some o => sortRecords o rs
  | none => some rs

/-- As many records as the limit lets through. -/
def limited (q : Query) (rs : List Record) : List Record :=
  match q.limit with
  | some n => rs.take n
  | none => rs

/-- The records that a query is about. -/
def matched (x : Index) (q : Query) : Option (List Record) :=
  (q.arranged (selected x q)).map q.limited

def tableRow (fields : List String) (r : Record) : Table Value :=
  fields.foldl (fun row field => row.insert field ((r.property? field).getD .null))
    (Table.insert ∅ "id" (.string r.id))

/-- The rows of the notes with open tasks. -/
def taskRows (book : Notebook) : List Record → Except Error (List TaskRow)
  | [] => .ok []
  | r :: rs =>
    match book.find? r.id with
    | none => .error (.noteUnavailable r.id)
    | some n =>
      (taskRows book rs).map fun rows =>
        if n.hasOpenTasks then ⟨r.id, r.title, n.tasks⟩ :: rows else rows

def project (q : Query) (book : Notebook) (rs : List Record) : Except Error Results :=
  match q.shape with
  | .list => .ok (.list (rs.map ListRow.ofRecord))
  | .table => .ok (.table (rs.map (tableRow q.fields)))
  | .task => (taskRows book rs).map .task
  | .count => .ok (.count rs.length)

def run (q : Query) (x : Index) (book : Notebook) : Option (Except Error Results) :=
  (matched x q).map (q.project book)

end NoteIndex.Query

namespace NoteIndex.Catalog

/-- Runs a query, on an index that is built first if need be. -/
def run (c : Catalog) (book : Notebook) (q : Query) :
    Catalog × Option (Except Query.Error Query.Results) :=
  let c := (c.init book).1
  (c, q.run c.index book)

/-- Reads and runs the text of a query. Text that cannot be read leaves the catalog alone. -/
def execute (c : Catalog) (book : Notebook) (text : String) : Catalog × Option Query.Outcome :=
  match Query.parse text with
  | .error e => (c, some (.failed e))
  | .ok q =>
    let (c, result) := c.run book q
    (c, result.map Query.Outcome.ofResult)

end NoteIndex.Catalog
