import NoteIndex.Json.Basic

/-!
# Reading JSON

The reader accepts exactly one value with blanks around it, as RFC 8259 has it, at any depth of
nesting and with any repetition of keys, which it keeps. It consumes at least a character before
each nested value, so the length of the text bounds the depth.
-/

namespace NoteIndex.Json

def isSpace (c : Char) : Bool := c == ' ' || c == '\n' || c == '\t' || c == '\r'

def skipSpace (cs : List Char) : List Char := cs.dropWhile isSpace

def hexValue? (c : Char) : Option Nat :=
  if c.isDigit then some (c.toNat - '0'.toNat)
  else if 'a' ≤ c ∧ c ≤ 'f' then some (c.toNat - 'a'.toNat + 10)
  else if 'A' ≤ c ∧ c ≤ 'F' then some (c.toNat - 'A'.toNat + 10)
  else none

def hexFour? (a b c d : Char) : Option Nat := do
  let a ← hexValue? a
  let b ← hexValue? b
  let c ← hexValue? c
  let d ← hexValue? d
  pure (((a * 16 + b) * 16 + c) * 16 + d)

def simpleEscape? (c : Char) : Option Char :=
  if c = '"' ∨ c = '\\' ∨ c = '/' then some c
  else if c = 'b' then some '\x08'
  else if c = 'f' then some '\x0c'
  else if c = 'n' then some '\n'
  else if c = 'r' then some '\r'
  else if c = 't' then some '\t'
  else none

/-- One piece of a string after its opening quote. -/
inductive Piece where
  /-- The closing quote. -/
  | close
  | char (c : Char)
  /-- An escaped half of a surrogate pair, without its partner. -/
  | lone

/-- The partner that completes a leading surrogate, and the text after it. -/
def trailing? (lead : Nat) : List Char → Option (Char × List Char)
  | '\\' :: 'u' :: a :: b :: c :: d :: r =>
    match hexFour? a b c d with
    | some n =>
      if 0xDC00 ≤ n ∧ n ≤ 0xDFFF then
        some (Char.ofNat ((lead - 0xD800) * 0x400 + (n - 0xDC00) + 0x10000), r)
      else none
    | none => none
  | _ => none

/-- Reads a piece of a string; fails on a bare control character, on a malformed escape and at the
end of the text. -/
def readPiece? : List Char → Option (Piece × List Char)
  | [] => none
  | '"' :: r => some (.close, r)
  | '\\' :: 'u' :: a :: b :: c :: d :: r =>
    match hexFour? a b c d with
    | none => none
    | some n =>
      if 0xD800 ≤ n ∧ n ≤ 0xDBFF then
        match trailing? n r with
        | some (c, r) => some (.char c, r)
        | none => some (.lone, r)
      else if 0xDC00 ≤ n ∧ n ≤ 0xDFFF then some (.lone, r)
      else some (.char (Char.ofNat n), r)
  | '\\' :: c :: r => (simpleEscape? c).map fun c => (.char c, r)
  | c :: r => if c.toNat < 0x20 || c == '\\' then none else some (.char c, r)

/-- Reads the rest of a string: its characters, or `none` in their place if one has no meaning. -/
def readString? : Nat → List Char → Option (Option (List Char) × List Char)
  | 0, _ => none
  | fuel + 1, cs =>
    match readPiece? cs with
    | none => none
    | some (.close, r) => some (some [], r)
    | some (.char c, r) => (readString? fuel r).map fun p => (p.1.map (c :: ·), p.2)
    | some (.lone, r) => (readString? fuel r).map fun p => (none, p.2)

/-- Reads digits, at least one. -/
def digits? (cs : List Char) : Option (List Char × List Char) :=
  let (ds, r) := cs.span Char.isDigit
  if ds.isEmpty then none else some (ds, r)

/-- The digits before the point: no leading zero. -/
def wholePart? : List Char → Option (List Char × List Char)
  | '0' :: r =>
    match r with
    | c :: _ => if c.isDigit then none else some (['0'], r)
    | [] => some (['0'], r)
  | cs => digits? cs

def fractionPart? : List Char → Option (List Char × List Char)
  | '.' :: r => (digits? r).map fun (ds, r) => ('.' :: ds, r)
  | cs => some ([], cs)

def exponentPart? : List Char → Option (List Char × List Char)
  | e :: r =>
    if e = 'e' ∨ e = 'E' then
      match r with
      | '-' :: q => (digits? q).map fun (ds, q) => (e :: '-' :: ds, q)
      | '+' :: q => (digits? q).map fun (ds, q) => (e :: '+' :: ds, q)
      | q => (digits? q).map fun (ds, q) => (e :: ds, q)
    else some ([], e :: r)
  | [] => some ([], [])

def readNumber? (cs : List Char) : Option (Json × List Char) := do
  let (minus, cs) := match cs with
    | '-' :: r => (['-'], r)
    | r => ([], r)
  let (whole, cs) ← wholePart? cs
  let (fraction, cs) ← fractionPart? cs
  let (exponent, cs) ← exponentPart? cs
  pure (.number (String.ofList (minus ++ whole ++ fraction ++ exponent)), cs)

def word? (word : String) (j : Json) (cs : List Char) : Option (Json × List Char) :=
  if word.toList.isPrefixOf cs then some (j, cs.drop word.length) else none

/-- An object, unless one of its keys denotes nothing. -/
def ofFields (fields : List (Option String × Json)) : Json :=
  match fields.mapM fun (k, j) => k.map fun k => (k, j) with
  | some fields => .object fields
  | none => .unpaired

mutual

def readValue? : Nat → List Char → Option (Json × List Char)
  | 0, _ => none
  | fuel + 1, cs =>
    match skipSpace cs with
    | '"' :: r =>
      (readString? (r.length + 1) r).map fun
        | (some s, r) => (.string (String.ofList s), r)
        | (none, r) => (.unpaired, r)
    | '[' :: r =>
      match skipSpace r with
      | ']' :: r => some (.array [], r)
      | _ => (readItems? fuel r).map fun (items, r) => (.array items, r)
    | '\x7b' :: r =>
      match skipSpace r with
      | '\x7d' :: r => some (.object [], r)
      | _ => (readFields? fuel r).map fun (fields, r) => (ofFields fields, r)
    | 't' :: r => word? "rue" (.bool true) r
    | 'f' :: r => word? "alse" (.bool false) r
    | 'n' :: r => word? "ull" .null r
    | r => readNumber? r

/-- The items of an array from the first one on, and the closing bracket. -/
def readItems? : Nat → List Char → Option (List Json × List Char)
  | 0, _ => none
  | fuel + 1, cs =>
    match readValue? fuel cs with
    | none => none
    | some (j, r) =>
      match skipSpace r with
      | ',' :: r => (readItems? fuel r).map fun (items, r) => (j :: items, r)
      | ']' :: r => some ([j], r)
      | _ => none

/-- The fields of an object from the first one on, and the closing brace. -/
def readFields? : Nat → List Char → Option (List (Option String × Json) × List Char)
  | 0, _ => none
  | fuel + 1, cs =>
    match skipSpace cs with
    | '"' :: r =>
      match readString? (r.length + 1) r with
      | none => none
      | some (k, r) =>
        match skipSpace r with
        | ':' :: r =>
          match readValue? fuel r with
          | none => none
          | some (j, r) =>
            let field := (k.map String.ofList, j)
            match skipSpace r with
            | ',' :: r => (readFields? fuel r).map fun (fields, r) => (field :: fields, r)
            | '\x7d' :: r => some ([field], r)
            | _ => none
        | _ => none
    | _ => none

end

def parse? (text : String) : Option Json :=
  let cs := text.toList
  match readValue? (2 * cs.length + 2) cs with
  | some (j, r) => if (skipSpace r).isEmpty then some j else none
  | none => none

end NoteIndex.Json
