import NoteIndex.Number.Basic

/-!
# TOML documents

A document is a table of named items. A table remembers how it came about, which decides what may
still be added to it: a table that a header defines cannot be defined again, one that dotted keys
make only grows by dotted keys from the same table, one that is only implied by the header of a
table below it may be defined later. Values between brackets or braces are closed.
-/

namespace NoteIndex

/-- How a table came about. -/
inductive Toml.Origin where
  | implied | dotted | defined
  deriving DecidableEq, Repr

inductive Toml where
  | string (s : String)
  | bool (b : Bool)
  | integer (n : Int)
  | float (x : Number)
  /-- A date, a time of day, or both, as it is written. -/
  | moment (text : String)
  | array (items : List Toml)
  /-- A table between braces. -/
  | inline (entries : List (String × Toml))
  | table (origin : Toml.Origin) (entries : List (String × Toml))
  /-- The tables that headers in double brackets have begun, the last one first. -/
  | tables (items : List (List (String × Toml)))

namespace Toml

abbrev Entries := List (String × Toml)

def find? (name : String) (es : Entries) : Option Toml :=
  (es.find? fun e => e.1 == name).map Prod.snd

/-- Rewrites the item of a name, or adds it. Fails where `f` does. -/
def alter? (name : String) (f : Option Toml → Option Toml) : Entries → Option Entries
  | [] => (f none).map fun t => [(name, t)]
  | (k, t) :: r =>
    if k = name then (f (some t)).map fun t => (k, t) :: r
    else (alter? name f r).map fun r => (k, t) :: r

/-- Adds a value by a dotted key to a table of the given origin. The tables on the way are made by
dotted keys or implied, and the last one is made by dotted keys. -/
def assign? (value : Toml) : List String → Origin → Entries → Option Entries
  | [], _, _ => none
  | [name], origin, es =>
    if origin = .implied then none
    else alter? name (fun
      | none => some value
      | some _ => none) es
  | name :: rest, _, es =>
    alter? name (fun
      | none => (assign? value rest .dotted []).map (.table .dotted)
      | some (.table .dotted inner) => (assign? value rest .dotted inner).map (.table .dotted)
      | some (.table .implied inner) => (assign? value rest .implied inner).map (.table .implied)
      | some (.tables (last :: others)) =>
        match rest with
        | [_] => none
        | _ => (assign? value rest .defined last).map fun last => .tables (last :: others)
      | some _ => none) es

/-- Rewrites by `f` the item that a header names, going through tables of any origin and through the
last of several; missing tables on the way are implied. -/
def alterBelow? (f : Option Toml → Option Toml) : List String → Entries → Option Entries
  | [], _ => none
  | [name], es => alter? name f es
  | name :: rest, es =>
    alter? name (fun
      | none => (alterBelow? f rest []).map (.table .implied)
      | some (.table origin inner) => (alterBelow? f rest inner).map (.table origin)
      | some (.tables (last :: others)) =>
        (alterBelow? f rest last).map fun last => .tables (last :: others)
      | some _ => none) es

/-- Begins the table of a header. -/
def define? (path : List String) (es : Entries) : Option Entries :=
  alterBelow? (fun
    | none => some (.table .defined [])
    | some (.table .implied inner) => some (.table .defined inner)
    | some _ => none) path es

/-- Begins a further table of a header in double brackets. -/
def extend? (path : List String) (es : Entries) : Option Entries :=
  alterBelow? (fun
    | none => some (.tables [[]])
    | some (.tables items) => some (.tables ([] :: items))
    | some _ => none) path es

/-- Adds a value by a dotted key to the table of a header, or to the document. -/
def assignAt? (path key : List String) (value : Toml) (es : Entries) : Option Entries :=
  if path.isEmpty then assign? value key .defined es
  else alterBelow? (fun
    | some (.table origin inner) => (assign? value key origin inner).map (.table origin)
    | some (.tables (last :: others)) =>
      (assign? value key .defined last).map fun last => .tables (last :: others)
    | _ => none) path es

end Toml

end NoteIndex
