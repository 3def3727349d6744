/-!
# JSON values

A number keeps the text it is written with. `unpaired` stands for well-formed text that denotes no
value: a string, or an object with a key, in which a surrogate escape has no partner. Such text may
be skipped but not used.
-/

namespace NoteIndex

inductive Json where
  | null
  | bool (b : Bool)
  | number (text : String)
  | string (s : String)
  | array (items : List Json)
  | object (fields : List (String × Json))
  | unpaired
  deriving Inhabited, Repr

namespace Json

def ofNat (n : Nat) : Json := .number (Nat.repr n)

def ofOption {α : Type} (f : α → Json) : Option α → Json
  | none => .null
  | some a => f a

def strings (xs : List String) : Json := .array (xs.map .string)

end Json

end NoteIndex
