import NoteIndex.Number.Basic
import NoteIndex.Text.Blank

/-!
# Reading decimal numbers

A decimal literal has an optional sign, digits with at most one point among or around them, and an
optional exponent; infinity and not-a-number have names. It is read as the number nearest to it.
-/

namespace NoteIndex.Number

def digitValue (c : Char) : Nat := c.toNat - '0'.toNat

/-- The number that a run of digits writes. -/
def digitsValue (ds : List Char) : Nat := ds.foldl (fun n c => n * 10 + digitValue c) 0

/-- Reads a run of digits off the front. -/
def spanDigits (cs : List Char) : List Char × List Char := cs.span Char.isDigit

/-- The value of `digits · 10 ^ exponent`. Where the exponent puts it beyond every number, or below
half the smallest, the power of ten is not computed. -/
def ofDecimal (negative : Bool) (digits : Nat) (exponent : Int) : Number :=
  let size := (Nat.toDigits 10 digits).length + exponent
  if digits = 0 ∨ size < -330 then .finite negative 0
  else if 330 < size then .infinite negative
  else
    nearest negative (digits * unitsPerOne * Nat.pow 10 exponent.toNat)
      (Nat.pow 10 (-exponent).toNat)

/-- Reads an exponent: a sign and digits after the letter. Without digits it is malformed. -/
def readExponent? : List Char → Option Int
  | [] => some 0
  | e :: r =>
    if e = 'e' ∨ e = 'E' then
      let (negative, r) := match r with
        | '-' :: r => (true, r)
        | '+' :: r => (false, r)
        | r => (false, r)
      if r.isEmpty || !r.all Char.isDigit then none
      else some (if negative then -(digitsValue r : Int) else digitsValue r)
    else none

def readUnsigned? (negative : Bool) (cs : List Char) : Option Number :=
  let (whole, r) := spanDigits cs
  let (fraction, r) := match r with
    | '.' :: r => spanDigits r
    | r => ([], r)
  if whole.isEmpty && fraction.isEmpty then none
  else (readExponent? r).map fun exponent =>
    ofDecimal negative (digitsValue (whole ++ fraction)) (exponent - fraction.length)

def readNamed? (negative : Bool) (cs : List Char) : Option Number :=
  let name := cs.map Char.toLower
  if name = "inf".toList ∨ name = "infinity".toList then some (.infinite negative)
  else if name = "nan".toList then some .notANumber
  else none

def readSigned? (negative : Bool) (cs : List Char) : Option Number :=
  (readNamed? negative cs).or (readUnsigned? negative cs)

def parse? : List Char → Option Number
  | '-' :: r => readSigned? true r
  | '+' :: r => readSigned? false r
  | cs => readSigned? false cs

/-- Reads text that may have blanks around it as a finite number. -/
def parseText? (cs : List Char) : Option Number := (parse? (Text.trim cs)).filter isFinite

theorem ne_notANumber_of_parseText? {cs : List Char} {n : Number} (h : parseText? cs = some n) :
    n ≠ .notANumber := by
  rintro rfl
  exact absurd (Option.filter_eq_some_iff.mp h).2 (by decide)

end NoteIndex.Number
