import NoteIndex.Number.Reading
import NoteIndex.Time.Calendar
import NoteIndex.Toml.Basic
import NoteIndex.Toml.Text

/-!
# Numbers and dates in TOML

Underscores may stand between the digits of a number. Integers have 64 bits. A date may have a time
of day, and that an offset; days must exist in their month.
-/

namespace NoteIndex.Toml

/-- Digits with single underscores between them, which are left out. -/
def readDigits (isDigit : Char → Bool) : List Char → List Char × List Char
  | [] => ([], [])
  | [c] => if isDigit c then ([c], []) else ([], [c])
  | c :: d :: r =>
    if isDigit c then
      if d = '_' then
        match r with
        | e :: _ =>
          if isDigit e then
            let (ds, r) := readDigits isDigit r
            (c :: ds, r)
          else ([c], d :: r)
        | [] => ([c], d :: r)
      else
        let (ds, r) := readDigits isDigit (d :: r)
        (c :: ds, r)
    else ([], c :: d :: r)

/-- At least one digit. -/
def digits? (isDigit : Char → Bool) (cs : List Char) : Option (List Char × List Char) :=
  let (ds, r) := readDigits isDigit cs
  if ds.isEmpty then none else some (ds, r)

/-- Decimal digits that do not begin with a zero, or a zero alone. -/
def decimal? : Reads (List Char)
  | '0' :: r => some (['0'], r)
  | cs => digits? Char.isDigit cs

/-- A sign and the text after it. -/
def sign : List Char → List Char × List Char
  | '-' :: r => (['-'], r)
  | '+' :: r => (['+'], r)
  | cs => ([], cs)

def inRange? (n : Int) : Option Int :=
  if Int64.minValue.toInt ≤ n ∧ n ≤ Int64.maxValue.toInt then some n else none

/-- The number that digits of a base write. -/
def baseValue (base : Nat) (ds : List Char) : Nat :=
  ds.foldl (fun n c => n * base + (Json.hexValue? c).getD 0) 0

def based? (base : Nat) (isDigit : Char → Bool) (cs : List Char) : Option (Int × List Char) := do
  let (ds, r) ← digits? isDigit cs
  pure (← inRange? (baseValue base ds), r)

def integer? : Reads Int
  | '0' :: 'x' :: r => based? 16 (fun c => (Json.hexValue? c).isSome) r
  | '0' :: 'o' :: r => based? 8 (fun c => '0' ≤ c && c ≤ '7') r
  | '0' :: 'b' :: r => based? 2 (fun c => c == '0' || c == '1') r
  | cs => do
    let (s, cs) := sign cs
    let (ds, r) ← decimal? cs
    let n : Int := baseValue 10 ds
    pure (← inRange? (if s = ['-'] then -n else n), r)

def fraction? : Reads (List Char)
  | '.' :: r => (digits? Char.isDigit r).map fun (ds, r) => ('.' :: ds, r)
  | _ => none

def exponent? : Reads (List Char)
  | e :: r =>
    if e = 'e' ∨ e = 'E' then
      let (s, r) := sign r
      (digits? Char.isDigit r).map fun (ds, r) => ('e' :: s ++ ds, r)
    else none
  | [] => none

/-- A number with a point, an exponent or both, as one without underscores. -/
def floatText? (cs : List Char) : Option (List Char × List Char) := do
  let (s, cs) := sign cs
  let (whole, r) ← decimal? cs
  match fraction? r with
  | some (fraction, r) =>
    let (exponent, r) := (exponent? r).getD ([], r)
    pure (s ++ whole ++ fraction ++ exponent, r)
  | none => (exponent? r).map fun (exponent, r) => (s ++ whole ++ exponent, r)

/-- Infinity or not-a-number, with or without a sign. -/
def specialText? (cs : List Char) : Option (List Char × List Char) :=
  let (s, r) := sign cs
  match r with
  | 'i' :: 'n' :: 'f' :: r => some (s ++ "inf".toList, r)
  | 'n' :: 'a' :: 'n' :: r => some (s ++ "nan".toList, r)
  | _ => none

/-- A number that is not an integer. Digits that write a number too large are refused. -/
def float? (cs : List Char) : Option (Number × List Char) :=
  match floatText? cs with
  | some (text, r) =>
    match Number.parse? text with
    | some (.infinite false) => none
    | some x => some (x, r)
    | none => none
  | none => (specialText? cs).bind fun (text, r) => (Number.parse? text).map fun x => (x, r)

/-- Exactly `k` digits. -/
def fixed? (k : Nat) (cs : List Char) : Option (Nat × List Char) :=
  let ds := cs.take k
  if ds.length = k ∧ ds.all Char.isDigit then some (Number.digitsValue ds, cs.drop k) else none

def char? (c : Char) : Reads Unit
  | d :: r => if d = c then some ((), r) else none
  | [] => none

/-- The number of days of a month. -/
def daysIn (year month : Nat) : Nat :=
  if month = 2 then if year % 4 = 0 ∧ (year % 100 ≠ 0 ∨ year % 400 = 0) then 29 else 28
  else if month = 4 ∨ month = 6 ∨ month = 9 ∨ month = 11 then 30
  else 31

def date? (cs : List Char) : Option (List Char) := do
  let (year, cs) ← fixed? 4 cs
  let (_, cs) ← char? '-' cs
  let (month, cs) ← fixed? 2 cs
  let (_, cs) ← char? '-' cs
  let (day, cs) ← fixed? 2 cs
  if 1 ≤ month ∧ month ≤ 12 ∧ 1 ≤ day ∧ day ≤ daysIn year month then some cs else none

def time? (cs : List Char) : Option (List Char) := do
  let (hour, cs) ← fixed? 2 cs
  let (_, cs) ← char? ':' cs
  let (minute, cs) ← fixed? 2 cs
  let (_, cs) ← char? ':' cs
  let (second, cs) ← fixed? 2 cs
  if hour ≤ 23 ∧ minute ≤ 59 ∧ second ≤ 60 then
    match cs with
    | '.' :: r =>
      let rest := r.dropWhile Char.isDigit
      if rest.length < r.length then some rest else none
    | cs => some cs
  else none

def offset? : List Char → Option (List Char)
  | 'Z' :: r => some r
  | 'z' :: r => some r
  | cs =>
    match sign cs with
    | ([], _) => none
    | (_, cs) => do
      let (hour, cs) ← fixed? 2 cs
      let (_, cs) ← char? ':' cs
      let (minute, cs) ← fixed? 2 cs
      if hour ≤ 23 ∧ minute ≤ 59 then some cs else none

/-- Whether a date begins here; if so, nothing but a moment can be read. -/
def beginsDate (cs : List Char) : Bool :=
  match fixed? 4 cs with
  | some (_, '-' :: _) => true
  | _ => false

def beginsTime (cs : List Char) : Bool :=
  match fixed? 2 cs with
  | some (_, ':' :: _) => true
  | _ => false

/-- The text after the time of day that a date may have, and that time's offset. -/
def afterDate? (cs : List Char) : Option (List Char) :=
  match cs with
  | c :: r =>
    if (c = 'T' ∨ c = 't' ∨ c = ' ') ∧ (beginsTime r ∨ c ≠ ' ') then
      (time? r).map fun r => (offset? r).getD r
    else some cs
  | [] => some []

def scalarValue? (cs : List Char) : Option (Toml × List Char) :=
  let moment (rest : Option (List Char)) : Option (Toml × List Char) :=
    rest.map fun r => (.moment (String.ofList (cs.take (cs.length - r.length))), r)
  if beginsDate cs then moment ((date? cs).bind afterDate?)
  else if beginsTime cs then moment (time? cs)
  else
    match float? cs with
    | some (x, r) => some (.float x, r)
    | none => (integer? cs).map fun (n, r) => (.integer n, r)

end NoteIndex.Toml
