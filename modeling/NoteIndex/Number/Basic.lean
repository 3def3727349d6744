/-!
# Numbers

The numbers of IEEE 754 binary64, exactly. Every finite one is a whole multiple of the smallest
positive one, 2⁻¹⁰⁷⁴, so a finite number is a sign and a count of these units, and comparing numbers
is comparing integers. There are two zeros, which compare equal, two infinities, and one value that
is no number and compares with nothing.
-/

namespace NoteIndex

inductive Number where
  | finite (negative : Bool) (units : Nat)
  | infinite (negative : Bool)
  | notANumber
  deriving DecidableEq, Repr

namespace Number

def unitsPerOne : Nat := Nat.pow 2 1074

/-- Every finite number has fewer units than this. -/
def unitLimit : Nat := Nat.pow 2 2098

/-- The distance between neighbouring numbers that have about so many units: the first 53 binary
digits count. -/
def spacing (units : Nat) : Nat := Nat.pow 2 (units.log2 + 1 - 53)

/-- `num / den` rounded to the nearest whole number, a half to the even neighbour. -/
def roundHalfEven (num den : Nat) : Nat :=
  let q := num / den
  let twice := 2 * (num % den)
  if twice < den then q
  else if den < twice then q + 1
  else if q % 2 = 0 then q else q + 1

/-- The number nearest to `num / den` units, a half to the even neighbour, and infinity where that
is out of range. -/
def nearest (negative : Bool) (num den : Nat) : Number :=
  let step := spacing (num / den)
  let units := roundHalfEven num (den * step) * step
  if units < unitLimit then .finite negative units else .infinite negative

def ofNat (n : Nat) : Number := nearest false (n * unitsPerOne) 1

/-- The place of a number on the line of units; infinity lies past the end. -/
def position : Number → Option Int
  | .finite negative units => some (if negative then -units else units)
  | .infinite negative => some (if negative then -unitLimit else unitLimit)
  | .notANumber => none

def equals (a b : Number) : Bool :=
  match a.position, b.position with
  | some x, some y => x == y
  | _, _ => false

def compare? (a b : Number) : Option Ordering :=
  match a.position, b.position with
  | some x, some y => some (compare x y)
  | _, _ => none

def isFinite : Number → Bool
  | .finite _ _ => true
  | _ => false

/-- The integer that a number is, where it is one below 10¹⁵ in size. Such numbers are written
without a decimal point. -/
def asShortInteger? : Number → Option Int
  | .finite negative units =>
    if units % unitsPerOne = 0 ∧ units < Nat.pow 10 15 * unitsPerOne then
      let n : Int := (units / unitsPerOne : Nat)
      some (if negative then -n else n)
    else none
  | _ => none

theorem equals_iff_compare (a b : Number) : a.equals b = true ↔ a.compare? b = some .eq := by
  unfold equals compare?
  split <;> simp

end Number

end NoteIndex
