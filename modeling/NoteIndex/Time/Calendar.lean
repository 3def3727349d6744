/-!
# Calendar dates

The Gregorian calendar, carried back without a break, with a year zero. A date and the number of
days from 1 January 1970 to it determine each other.
-/

namespace NoteIndex

structure Date where
  year : Int
  month : Nat
  day : Nat
  deriving DecidableEq, Repr

namespace Date

def isLeap (year : Int) : Bool := (year % 4 == 0 && year % 100 != 0) || year % 400 == 0

def monthLengths (leap : Bool) : List Nat :=
  [31, if leap then 29 else 28, 31, 30, 31, 30, 31, 31, 30, 31, 30, 31]

def isValid (d : Date) : Bool :=
  match d.month with
  | 0 => false
  | m + 1 =>
    match (monthLengths (isLeap d.year))[m]? with
    | none => false
    | some n => 1 ≤ d.day && d.day ≤ n

/-- Days from 1 January of year zero to 1 January of `year`. -/
def daysBeforeYear (year : Int) : Int :=
  365 * year + (year + 3) / 4 - (year + 99) / 100 + (year + 399) / 400

/-- Days from 1 January of year zero to 1 January 1970. -/
def epoch : Int := daysBeforeYear 1970

def toDays (d : Date) : Int :=
  let beforeMonth : Nat := ((monthLengths (isLeap d.year)).take (d.month - 1)).foldl (· + ·) 0
  daysBeforeYear d.year + beforeMonth + d.day - 1 - epoch

/-- The year in which a day lies. The quotient by the mean length of a year is off by at most
one. -/
def yearOfDay (n : Int) : Int :=
  let year := n * 400 / 146097
  if n < daysBeforeYear year then year - 1
  else if daysBeforeYear (year + 1) ≤ n then year + 1
  else year

/-- Finds a day of the year among months of these lengths, the first of which is number
`month`. -/
def monthAndDay (month : Nat) : List Nat → Nat → Nat × Nat
  | [], n => (month, n + 1)
  | len :: r, n => if n < len then (month, n + 1) else monthAndDay (month + 1) r (n - len)

def ofDays (days : Int) : Date :=
  let n := days + epoch
  let year := yearOfDay n
  let (month, day) := monthAndDay 1 (monthLengths (isLeap year)) (n - daysBeforeYear year).toNat
  ⟨year, month, day⟩

end Date

end NoteIndex
