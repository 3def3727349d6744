import NoteIndex.Index.Basic

/-!
# Checking an index

The maps of an index are compared with those that its records give. Every difference is an error:
an empty set, an identifier or key without a note, an entry too many or too few. A link to no
note's title is worth a warning, once a record and link key.
-/

namespace NoteIndex

inductive MapKind where
  | tag | link | backlink
  deriving DecidableEq, Repr

def MapKind.name : MapKind → String
  | .tag => "tag index"
  | .link => "link index"
  | .backlink => "backlink index"

inductive Severity where
  | warning | error
  deriving DecidableEq, Repr

def Severity.name : Severity → String
  | .warning => "warning"
  | .error => "error"

inductive Issue where
  /-- A key stands for no identifiers. -/
  | emptyBucket (map : MapKind) (key : String)
  /-- An identifier of no note stands under a key. -/
  | orphanId (map : MapKind) (key id : String)
  /-- The key of a backlink is no note. -/
  | staleKey (map : MapKind) (key : String)
  /-- A note is not listed where it should be. -/
  | missingEntry (map : MapKind) (key id : String)
  /-- A note is listed where it should not be. -/
  | unexpectedEntry (map : MapKind) (key id : String)
  /-- A link matches no title. -/
  | unresolvedLink (id target : String)
  deriving DecidableEq, Repr

namespace Issue

def severity : Issue → Severity
  | .unresolvedLink _ _ => .warning
  | _ => .error

def isError (i : Issue) : Bool := i.severity == .error

def isWarning (i : Issue) : Bool := i.severity == .warning

def text : Issue → String
  | .emptyBucket m key => m.name ++ ": key '" ++ key ++ "' maps to an empty set"
  | .orphanId m key id => m.name ++ ": key '" ++ key ++ "' lists unknown note '" ++ id ++ "'"
  | .staleKey m key => m.name ++ ": key '" ++ key ++ "' is not a live note"
  | .missingEntry m key id => m.name ++ ": key '" ++ key ++ "' is missing note '" ++ id ++ "'"
  | .unexpectedEntry m key id =>
    m.name ++ ": key '" ++ key ++ "' wrongly lists note '" ++ id ++ "'"
  | .unresolvedLink id target => id ++ ": link to '" ++ target ++ "' does not resolve"

/-- The text after its severity. -/
def line (i : Issue) : String := i.severity.name ++ ": " ++ i.text

end Issue

/-- The issues of an index in the order they were found. -/
abbrev Issues := List Issue

namespace Issues

def errors (is : Issues) : Issues := is.filter Issue.isError

def warnings (is : Issues) : Issues := is.filter Issue.isWarning

def hasErrors (is : Issues) : Bool := is.any Issue.isError

/-- Errors first, each kind in the order found. -/
def bySeverity (is : Issues) : Issues := errors is ++ warnings is

end Issues

namespace Index

/-- The links of a record, one for each key: the first of it. -/
def distinctLinks (seen : List String) : List Link → List Link
  | [] => []
  | l :: r =>
    if seen.contains l.key then distinctLinks seen r else l :: distinctLinks (l.key :: seen) r

/-- The links of a record that match no title, as warnings. -/
def unresolvedOf (titles : IdMap) (r : Record) : Issues :=
  ((distinctLinks [] r.links).filter fun l => (titles.ids l.key).isEmpty).map fun l =>
    .unresolvedLink r.id l.target

/-- What is wrong with one key of a map, given the identifiers it should list. -/
def checkKey (x : Index) (m : MapKind) (key : String) (ids expected : StringSet) : Issues :=
  (if ids.isEmpty then [.emptyBucket m key] else []) ++
    (if m = .backlink ∧ ¬ x.records.contains key then [.staleKey m key] else []) ++
    ids.toList.filterMap fun id =>
      if ¬ x.records.contains id then some (.orphanId m key id)
      else if ¬ expected.contains id then some (.unexpectedEntry m key id)
      else none

/-- What a key should list and does not. -/
def missingAt (m : MapKind) (key : String) (ids expected : StringSet) : Issues :=
  expected.toList.filterMap fun id =>
    if ids.contains id then none else some (.missingEntry m key id)

/-- Compares a map with what it should be. -/
def checkMap (x : Index) (m : MapKind) (actual expected : IdMap) : Issues :=
  actual.entries.flatMap (fun e => x.checkKey m e.1 e.2 (expected.ids e.1)) ++
    expected.entries.flatMap fun e => missingAt m e.1 (actual.ids e.1) e.2

def validate (x : Index) : Issues :=
  let rs := x.records.values
  rs.flatMap (unresolvedOf (titlesOf rs)) ++
    x.checkMap .tag x.tags (tagsOf rs) ++
    x.checkMap .link x.links (linksOf rs) ++
    x.checkMap .backlink x.backlinks (backlinksOf rs)

end Index

end NoteIndex
