import NoteIndex.Time.Calendar

/-!
# Timestamps

An instant in coordinated universal time: seconds from the beginning of 1970, and nanoseconds. A
leap second is the last second of its minute with 10⁹ nanoseconds or more, and is written as
second 60. Instants are ordered by seconds, then by nanoseconds.

Written out, an instant has no fraction of a second, or one of three, six or nine digits, whichever
is the first to hold it all; properties of notes cut it to three digits.
-/

namespace NoteIndex

structure Timestamp where
  seconds : Int
  nanos : Nat
  deriving DecidableEq, Repr, Inhabited

namespace Timestamp

def compare (a b : Timestamp) : Ordering :=
  (Ord.compare a.seconds b.seconds).then (Ord.compare a.nanos b.nanos)

def date (t : Timestamp) : Date := .ofDays (t.seconds / 86400)

def secondOfDay (t : Timestamp) : Nat := (t.seconds % 86400).toNat

def hour (t : Timestamp) : Nat := t.secondOfDay / 3600

def minute (t : Timestamp) : Nat := t.secondOfDay / 60 % 60

def second (t : Timestamp) : Nat := t.secondOfDay % 60 + t.nanos / 1000000000

def fraction (t : Timestamp) : Nat := t.nanos % 1000000000

/-- A number with leading zeros, `width` digits at least. -/
def padded (width n : Nat) : String :=
  let digits := Nat.repr n
  String.ofList (List.replicate (width - digits.length) '0') ++ digits

/-- Years of four digits stand alone, others have a sign. -/
def yearText (year : Int) : String :=
  if 0 ≤ year ∧ year ≤ 9999 then padded 4 year.toNat
  else (if year < 0 then "-" else "+") ++ padded 4 year.natAbs

def dateText (d : Date) : String :=
  yearText d.year ++ "-" ++ padded 2 d.month ++ "-" ++ padded 2 d.day

def clockText (t : Timestamp) : String := padded 2 t.hour ++ ":" ++ padded 2 t.minute

/-- Date and time of day to the second. -/
def wholeText (t : Timestamp) : String :=
  dateText t.date ++ "T" ++ t.clockText ++ ":" ++ padded 2 t.second

/-- The point and digits of the fraction, as many as it needs. -/
def fractionText (n : Nat) : String :=
  if n = 0 then ""
  else if n % 1000000 = 0 then "." ++ padded 3 (n / 1000000)
  else if n % 1000 = 0 then "." ++ padded 6 (n / 1000)
  else "." ++ padded 9 n

def text (t : Timestamp) : String := t.wholeText ++ fractionText t.fraction ++ "Z"

def millisText (t : Timestamp) : String :=
  t.wholeText ++ "." ++ padded 3 (t.fraction / 1000000) ++ "Z"

def minuteText (t : Timestamp) : String := dateText t.date ++ " " ++ t.clockText

end Timestamp

end NoteIndex
