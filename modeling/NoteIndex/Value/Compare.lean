import NoteIndex.Number.Reading
import NoteIndex.Text.Lowercase
import NoteIndex.Value.Written

/-!
# Comparing values

`looseEq` is the equality of queries: it reads strings as numbers and booleans where the other side
is one. `naturalCompare` is their order: by size where both sides read as numbers, otherwise by
the plain text.
-/

namespace NoteIndex.Value

def asNumber? : Value → Option Number
  | .number n => some n
  | .string s => Number.parseText? s.toList
  | _ => none

/-- Whether text reads as that number. -/
def readsAs (s : String) (n : Number) : Bool :=
  match Number.parseText? s.toList with
  | some m => m.equals n
  | none => false

/-- Whether text, blanks aside, spells that truth value. -/
def spells (s : String) (b : Bool) : Bool := Text.trimmed s == if b then "true" else "false"

def looseEq : Value → Value → Bool
  | .number n, .string s => readsAs s n
  | .string s, .number n => readsAs s n
  | .bool b, .string s => spells s b
  | .string s, .bool b => spells s b
  | a, b => a.same b

def naturalCompare (a b : Value) : Ordering :=
  match a.asNumber?, b.asNumber? with
  | some m, some n => (m.compare? n).getD .eq
  | _, _ => compareOfLessAndEq a.text b.text

/-- Case-insensitive search for text in a string, or in any item of a list. -/
def containsText (haystack : Value) (needle : String) : Bool :=
  let needle := Text.lower needle.toList
  match haystack with
  | .string s => Text.occursIn needle (Text.lower s.toList)
  | .list items => items.any fun item => Text.occursIn needle (Text.lower item.text.toList)
  | _ => false

end NoteIndex.Value
