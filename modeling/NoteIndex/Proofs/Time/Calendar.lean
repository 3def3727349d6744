import Mathlib
import NoteIndex.Time.Calendar

/-!
# Days and dates

The date of a day is a date of the calendar, and the day of that date is the day one began with. The
year is found first: a year has 365 days, or 366 if it is a leap year, and the days before the years
around the one that is guessed show that the guess is off by one at most.
-/

namespace NoteIndex.Date

/-! ## Years -/

theorem daysBeforeYear_succ (year : Int) : daysBeforeYear (year + 1) =
    daysBeforeYear year + 365 + (if isLeap year then 1 else 0) := by
  simp only [isLeap, Bool.or_eq_true, Bool.and_eq_true, beq_iff_eq, bne_iff_ne]
  rw [daysBeforeYear, daysBeforeYear]
  split <;> omega

/-- The day lies in the year that is found for it. -/
theorem yearOfDay_bounds (n : Int) :
    daysBeforeYear (yearOfDay n) ≤ n ∧ n < daysBeforeYear (yearOfDay n + 1) := by
  -- The quotient by the mean length of a year is within a year of the truth.
  have hlow : daysBeforeYear (n * 400 / 146097 - 1) ≤ n := by
    rw [daysBeforeYear]
    omega
  have hhigh : n < daysBeforeYear (n * 400 / 146097 + 2) := by
    rw [daysBeforeYear]
    omega
  rw [yearOfDay]
  generalize n * 400 / 146097 = year at hlow hhigh
  split
  · rename_i h
    rw [Int.sub_add_cancel]
    exact ⟨hlow, h⟩
  · split
    · rename_i h
      rw [Int.add_assoc]
      exact ⟨h, hhigh⟩
    · rename_i h h'
      exact ⟨Int.not_lt.mp h, Int.not_le.mp h'⟩

theorem year_le_of_le {m n : Int} (h : m ≤ n) : (ofDays m).year ≤ (ofDays n).year := by
  have hm := (yearOfDay_bounds (m + epoch)).1
  have hn := (yearOfDay_bounds (n + epoch)).2
  change yearOfDay (m + epoch) ≤ yearOfDay (n + epoch)
  by_contra hlt
  have hyears : daysBeforeYear (yearOfDay (n + epoch) + 1) ≤
      daysBeforeYear (yearOfDay (m + epoch)) := by
    simp only [daysBeforeYear]
    omega
  omega

/-! ## Months -/

theorem sum_monthLengths (leap : Bool) :
    (monthLengths leap).sum = 365 + (if leap then 1 else 0) := by
  cases leap <;> rfl

/-- A day within the months is found in one of them, after the days of all before. -/
theorem monthAndDay_of_lt {lens : List Nat} {n : Nat} (h : n < lens.sum) (month : Nat) :
    ∃ i len, lens[i]? = some len ∧ (monthAndDay month lens n).1 = month + i ∧
      1 ≤ (monthAndDay month lens n).2 ∧ (monthAndDay month lens n).2 ≤ len ∧
      (lens.take i).sum + (monthAndDay month lens n).2 = n + 1 := by
  induction lens generalizing n month with
  | nil => exact absurd h (Nat.not_lt_zero n)
  | cons len lens ih =>
    rw [monthAndDay]
    split
    · rename_i hlt
      refine ⟨0, len, rfl, rfl, Nat.le_add_left 1 n, hlt, ?_⟩
      simp
    · rename_i hlt
      rw [List.sum_cons] at h
      obtain ⟨i, l, hget, hmonth, hone, hle, hsum⟩ := ih (n := n - len) (by omega) (month + 1)
      refine ⟨i + 1, l, hget, by omega, hone, hle, ?_⟩
      rw [List.take_succ_cons, List.sum_cons]
      omega

/-! ## Dates -/

variable (days : Int)

/-- The days of the year before the date, as they are counted from its beginning. -/
theorem dayOfYear_lt :
    (days + epoch - daysBeforeYear (yearOfDay (days + epoch))).toNat <
      (monthLengths (isLeap (yearOfDay (days + epoch)))).sum := by
  obtain ⟨hle, hlt⟩ := yearOfDay_bounds (days + epoch)
  rw [daysBeforeYear_succ] at hlt
  rw [sum_monthLengths]
  split at hlt <;> simp_all <;> omega

theorem toDays_ofDays : (ofDays days).toDays = days := by
  obtain ⟨i, len, -, hmonth, hone, -, hsum⟩ := monthAndDay_of_lt (dayOfYear_lt days) 1
  have hle := (yearOfDay_bounds (days + epoch)).1
  simp only [toDays, ofDays, ← List.sum_eq_foldl, hmonth, Nat.add_sub_cancel_left]
  omega

theorem isValid_ofDays : (ofDays days).isValid = true := by
  obtain ⟨i, len, hget, hmonth, hone, hle, -⟩ := monthAndDay_of_lt (dayOfYear_lt days) 1
  simp only [isValid, ofDays, hmonth, Nat.add_comm 1 i, hget]
  simp [hone, hle]

theorem monthLengths_le (leap : Bool) : ∀ len ∈ monthLengths leap, len ≤ 31 := by
  cases leap <;> decide

section Valid

variable {d e : Date}

theorem exists_of_isValid (h : d.isValid = true) : ∃ m len, d.month = m + 1 ∧
    (monthLengths (isLeap d.year))[m]? = some len ∧ 1 ≤ d.day ∧ d.day ≤ len := by
  rw [isValid] at h
  split at h
  · cases h
  · rename_i m hm
    split at h
    · cases h
    · rename_i len hlen
      rw [Bool.and_eq_true, decide_eq_true_eq, decide_eq_true_eq] at h
      exact ⟨m, len, hm, hlen, h⟩

/-- Months and days have two digits. -/
theorem lt_of_isValid (h : d.isValid = true) : d.month < 100 ∧ d.day < 100 := by
  obtain ⟨m, len, hm, hlen, -, hday⟩ := exists_of_isValid h
  have hm12 : m < 12 := (List.getElem?_eq_some_iff.mp hlen).1
  have hlen31 : len ≤ 31 := monthLengths_le _ len (List.mem_of_getElem? hlen)
  omega

theorem toDays_lt_of_month_lt (hd : d.isValid = true) (he : e.isValid = true)
    (hyear : d.year = e.year) (h : d.month < e.month) : d.toDays < e.toDays := by
  obtain ⟨m, len, hm, hlen, -, hday⟩ := exists_of_isValid hd
  obtain ⟨n, -, hn, -, hone, -⟩ := exists_of_isValid he
  rw [hyear] at hlen
  -- all of the first month, and what is before it, is before the second
  have hsum : ((monthLengths (isLeap e.year)).take m).sum + len ≤
      ((monthLengths (isLeap e.year)).take n).sum := by
    obtain ⟨hlt, rfl⟩ := List.getElem?_eq_some_iff.mp hlen
    rw [← List.sum_take_succ _ _ hlt]
    exact List.monotone_sum_take _ (by omega)
  simp only [toDays, hyear, hm, hn, Nat.add_sub_cancel, ← List.sum_eq_foldl]
  omega

end Valid

end NoteIndex.Date
