import NoteIndex.Text.Split
import NoteIndex.Text.Blank
import NoteIndex.Time.Timestamp

/-!
# Reading timestamps

A date, one of `T`, `t` and a blank, a time of day and an offset from universal time. Numbers may be
shorter than usual, and blanks may stand before every number and separator but that one; the offset
is `Z`, `UTC`, or a sign and two numbers of two digits with colons or blanks between.
-/

namespace NoteIndex.Timestamp

open Text

/-- Reads a number of one to `width` digits. -/
def readNumber? (width : Nat) (cs : List Char) : Option (Nat × List Char) :=
  let ds := (cs.take width).takeWhile Char.isDigit
  if ds.isEmpty then none
  else some (ds.foldl (fun n c => n * 10 + (c.toNat - '0'.toNat)) 0, cs.drop ds.length)

/-- A signed year may have any number of digits. -/
def readYear? (cs : List Char) : Option (Int × List Char) :=
  match trimStart cs with
  | '-' :: r => (readNumber? r.length r).map fun (n, r) => (-n, r)
  | '+' :: r => (readNumber? r.length r).map fun (n, r) => (n, r)
  | r => (readNumber? 4 r).map fun (n, r) => (n, r)

def readPair? (cs : List Char) : Option (Nat × List Char) := readNumber? 2 (trimStart cs)

def separator? (c : Char) (cs : List Char) : Option (List Char) :=
  match trimStart cs with
  | d :: r => if d = c then some r else none
  | [] => none

def readDate? (cs : List Char) : Option (Date × List Char) := do
  let (year, cs) ← readYear? cs
  let cs ← separator? '-' cs
  let (month, cs) ← readPair? cs
  let cs ← separator? '-' cs
  let (day, cs) ← readPair? cs
  if Date.isValid ⟨year, month, day⟩ then some (⟨year, month, day⟩, cs) else none

/-- The nanoseconds after a point; digits past the ninth are dropped. -/
def readFraction? : List Char → Option (Nat × List Char)
  | '.' :: r =>
    let ds := r.takeWhile Char.isDigit
    (readNumber? 9 r).map fun (n, _) => (n * Nat.pow 10 (9 - ds.length), r.drop ds.length)
  | cs => some (0, cs)

/-- The second of the day and the nanoseconds. Second 60 is second 59 with 10⁹ more nanoseconds. -/
def readTime? (cs : List Char) : Option ((Nat × Nat) × List Char) := do
  let (hour, cs) ← readPair? cs
  let cs ← separator? ':' cs
  let (minute, cs) ← readPair? cs
  let cs ← separator? ':' cs
  let (second, cs) ← readPair? cs
  let (nanos, cs) ← readFraction? cs
  if 23 < hour ∨ 59 < minute ∨ 60 < second then none
  else if second = 60 then some ((hour * 3600 + minute * 60 + 59, 1000000000 + nanos), cs)
  else some ((hour * 3600 + minute * 60 + second, nanos), cs)

def twoDigits? : List Char → Option (Nat × List Char)
  | a :: b :: r =>
    if a.isDigit ∧ b.isDigit then
      some ((a.toNat - '0'.toNat) * 10 + (b.toNat - '0'.toNat), r)
    else none
  | _ => none

/-- Hours and minutes east, in seconds; less than a day. -/
def readHours? (cs : List Char) : Option (Nat × List Char) := do
  let (hours, cs) ← twoDigits? cs
  let (minutes, cs) ← twoDigits? (cs.dropWhile fun c => c == ':' || isBlank c)
  if 59 < minutes ∨ 23 < hours then none else some (hours * 3600 + minutes * 60, cs)

def readOffset? (cs : List Char) : Option (Int × List Char) :=
  if beginsWith "UTC".toList ((cs.take 3).map Char.toUpper) then some (0, cs.drop 3)
  else match cs with
    | c :: r =>
      if c = 'Z' ∨ c = 'z' then some (0, r)
      else if c = '+' then (readHours? r).map fun (n, r) => (n, r)
      else if c = '-' ∨ c = '−' then (readHours? r).map fun (n, r) => (-n, r)
      else none
    | [] => none

/-- Years from `firstYear` to `lastYear` are within reach. -/
def firstYear : Int := -262143

def lastYear : Int := 262142

def inReach (seconds : Int) : Bool :=
  let year := (Date.ofDays (seconds / 86400)).year
  firstYear ≤ year && year ≤ lastYear

def readChars? (cs : List Char) : Option Timestamp := do
  let (date, cs) ← readDate? cs
  match cs with
  | [] => none
  | c :: cs =>
    if c = 'T' ∨ c = 't' ∨ c = ' ' then
      let ((second, nanos), cs) ← readTime? cs
      let (offset, cs) ← readOffset? (trimStart cs)
      let there := date.toDays * 86400 + second
      let here := there - offset
      if (trimStart cs).isEmpty && inReach there && inReach here then some ⟨here, nanos⟩ else none
    else none

def parse? (text : String) : Option Timestamp := readChars? text.toList

end NoteIndex.Timestamp
