import NoteIndex.Collection.Table
import NoteIndex.Number.Basic
import NoteIndex.Text.Split

/-!
# Values

What a frontmatter entry, a literal of a query or a property of a note can be. A map keeps the order
of its entries, but two maps are the same when they agree key by key.
-/

namespace NoteIndex

inductive Value where
  | null
  | bool (b : Bool)
  | number (n : Number)
  | string (s : String)
  | list (items : List Value)
  | map (entries : List (String × Value))
  deriving Inhabited, Repr

namespace Value

mutual

/-- Equality of values: numbers by size, maps key by key, everything else as written. -/
def same : Value → Value → Bool
  | .null, .null => true
  | .bool a, .bool b => a == b
  | .number m, .number n => m.equals n
  | .string s, .string t => s == t
  | .list xs, .list ys => sameItems xs ys
  | .map es, .map fs => es.length == fs.length && sameEntries es fs
  | _, _ => false

def sameItems : List Value → List Value → Bool
  | [], [] => true
  | x :: xs, y :: ys => x.same y && sameItems xs ys
  | _, _ => false

/-- Every entry on the left has its like on the right. -/
def sameEntries : List (String × Value) → List (String × Value) → Bool
  | [], _ => true
  | (k, v) :: r, fs =>
    (match Table.lookup k fs with
      | some w => v.same w
      | none => false) && sameEntries r fs

end

def ofNat (n : Nat) : Value := .number (.ofNat n)

def isPresent : Value → Bool
  | .null => false
  | _ => true

/-- Reads a list position: digits, perhaps after a plus sign, of a number below 2⁶⁴. -/
def index? (cs : List Char) : Option Nat :=
  let ds := match cs with
    | '+' :: r => r
    | r => r
  if ds.isEmpty || !ds.all Char.isDigit then none
  else
    let n := ds.foldl (fun n c => n * 10 + (c.toNat - '0'.toNat)) 0
    if n < UInt64.size then some n else none

/-- Takes one step into a value: a key of a map, or a position in a list. -/
def get? (v : Value) (segment : String) : Option Value :=
  match v with
  | .map entries => Table.lookup segment entries
  | .list items => (index? segment.toList).bind fun i => items[i]?
  | _ => none

/-- Follows a path of steps. -/
def path? (v : Value) : List String → Option Value
  | [] => some v
  | s :: r => (v.get? s).bind fun w => w.path? r

end Value

end NoteIndex
