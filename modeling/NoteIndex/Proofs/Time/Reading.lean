import NoteIndex.Proofs.Time.Calendar
import NoteIndex.Time.Reading

/-!
# Timestamps read back

An instant that is written out in full is read back as the same instant, to the nanosecond and in
the middle of a leap second. Each number is followed by something else than a digit, so it ends
where it should, and no blank stands in front of it. A count of nanoseconds that does not fit its
second is no instant, and nothing is claimed of it.
-/

namespace NoteIndex.Timestamp

open Text

/-- An instant within reach: nanoseconds go up to a second, or up to two in the last second of a
minute, which a leap second makes longer. -/
structure IsInstant (t : Timestamp) : Prop where
  inReach : inReach t.seconds = true
  nanos : t.nanos < 1000000000 ∨ (t.seconds % 60 = 59 ∧ t.nanos < 2000000000)

instance (t : Timestamp) : Decidable t.IsInstant :=
  decidable_of_iff (Timestamp.inReach t.seconds = true ∧
    (t.nanos < 1000000000 ∨ (t.seconds % 60 = 59 ∧ t.nanos < 2000000000)))
    ⟨fun h => ⟨h.1, h.2⟩, fun h => ⟨h.inReach, h.nanos⟩⟩

/-! ## Numbers -/

theorem not_isBlank_of_isDigit {c : Char} (h : c.isDigit = true) : isBlank c = false := by
  rw [Char.isDigit_iff_toNat] at h
  rw [Bool.eq_false_iff, ne_eq, isBlank_iff]
  have h0 : '0'.toNat = 48 := rfl
  have h9 : '9'.toNat = 57 := rfl
  omega

theorem trimStart_cons {c : Char} (h : isBlank c = false) (r : List Char) :
    trimStart (c :: r) = c :: r :=
  List.dropWhile_cons_of_neg (by simp [h])

/-- Digits are read up to the first character that is none. -/
theorem readNumber?_digits {ds : List Char} {width : Nat} (hne : ds ≠ [])
    (hds : ∀ d ∈ ds, d.isDigit = true) (hwidth : ds.length ≤ width) {c : Char}
    (hc : c.isDigit = false) (r : List Char) :
    readNumber? width (ds ++ c :: r) = some (Nat.ofDigitChars 10 ds 0, c :: r) := by
  have htake : ((ds ++ c :: r).take width).takeWhile Char.isDigit = ds := by
    rw [List.take_append, List.take_of_length_le hwidth, List.takeWhile_append_of_pos hds]
    cases width - ds.length with
    | zero => simp
    | succ k => simp [hc]
  have hfold : ds.foldl (fun n c => n * 10 + (c.toNat - '0'.toNat)) 0 =
      Nat.ofDigitChars 10 ds 0 := by
    simp only [Nat.ofDigitChars_eq_foldl, Nat.mul_comm]
  simp only [readNumber?, htake, hfold, List.isEmpty_iff, hne, if_false, List.drop_left]

section Padded

variable {width n : Nat}

theorem toList_padded (width n : Nat) : (padded width n).toList =
    List.replicate (width - (Nat.repr n).length) '0' ++ Nat.toDigits 10 n := by
  rw [padded, String.toList_append, String.toList_ofList, Nat.toList_repr]

theorem isDigit_padded : ∀ d ∈ (padded width n).toList, d.isDigit = true := by
  intro d hd
  rw [toList_padded, List.mem_append] at hd
  rcases hd with hd | hd
  · rw [List.eq_of_mem_replicate hd]
    rfl
  · exact Nat.isDigit_of_mem_toDigits (by decide) (by decide) hd

theorem padded_eq_cons (width n : Nat) :
    ∃ d ds, (padded width n).toList = d :: ds ∧ d.isDigit = true := by
  cases hds : (padded width n).toList with
  | nil =>
    rw [toList_padded] at hds
    exact absurd (List.append_eq_nil_iff.mp hds).2 Nat.toDigits_ne_nil
  | cons d ds => exact ⟨d, ds, rfl, isDigit_padded d (hds ▸ List.mem_cons_self ..)⟩

theorem ofDigitChars_padded : Nat.ofDigitChars 10 (padded width n).toList 0 = n := by
  rw [toList_padded, Nat.ofDigitChars_append, Nat.ofDigitChars_replicate_zero, Nat.mul_zero,
    Nat.ofDigitChars_toDigits (by decide) (by decide)]

theorem length_padded (hwidth : 0 < width) (hn : n < 10 ^ width) :
    (padded width n).toList.length = width := by
  have hlength := (Nat.length_repr_le_iff hwidth).mpr hn
  rw [toList_padded, List.length_append, List.length_replicate, ← Nat.toList_repr,
    String.length_toList]
  omega

/-- No blank comes before a number. -/
theorem trimStart_padded (r : List Char) : trimStart ((padded width n).toList ++ r) =
    (padded width n).toList ++ r := by
  obtain ⟨d, ds, hds, hd⟩ := padded_eq_cons width n
  rw [hds, List.cons_append, trimStart_cons (not_isBlank_of_isDigit hd)]

theorem readNumber?_padded {c : Char} (hc : c.isDigit = false) (r : List Char) {w : Nat}
    (hw : (padded width n).toList.length ≤ w) :
    readNumber? w ((padded width n).toList ++ c :: r) = some (n, c :: r) := by
  obtain ⟨d, ds, hds, -⟩ := padded_eq_cons width n
  have hne : (padded width n).toList ≠ [] := by
    rw [hds]
    exact List.cons_ne_nil d ds
  rw [readNumber?_digits hne isDigit_padded hw hc, ofDigitChars_padded]

theorem readPair?_padded {c : Char} (hc : c.isDigit = false) (r : List Char) (hn : n < 100) :
    readPair? ((padded 2 n).toList ++ c :: r) = some (n, c :: r) := by
  rw [readPair?, trimStart_padded]
  exact readNumber?_padded hc r (Nat.le_of_eq (length_padded (by decide) hn))

end Padded

theorem separator?_cons {c : Char} (h : isBlank c = false) (r : List Char) :
    separator? c (c :: r) = some r := by
  simp only [separator?, trimStart_cons h, if_true]

/-! ## Dates -/

theorem readYear?_of_digit {d : Char} (hd : d.isDigit = true) (r : List Char) :
    readYear? (d :: r) = (readNumber? 4 (d :: r)).map fun (n, r) => ((n : Int), r) := by
  rw [readYear?, trimStart_cons (not_isBlank_of_isDigit hd)]
  split
  · rename_i heq
    rw [(List.cons.inj heq).1] at hd
    exact absurd hd (by decide)
  · rename_i heq
    rw [(List.cons.inj heq).1] at hd
    exact absurd hd (by decide)
  · rfl

theorem readYear?_minus (r : List Char) :
    readYear? ('-' :: r) = (readNumber? r.length r).map fun (n, r) => (-(n : Int), r) := by
  simp only [readYear?, trimStart_cons (c := '-') rfl]

theorem readYear?_plus (r : List Char) :
    readYear? ('+' :: r) = (readNumber? r.length r).map fun (n, r) => ((n : Int), r) := by
  simp only [readYear?, trimStart_cons (c := '+') rfl]

theorem readYear?_yearText (year : Int) (r : List Char) :
    readYear? ((yearText year).toList ++ '-' :: r) = some (year, '-' :: r) := by
  have hdash : '-'.isDigit = false := rfl
  rw [yearText]
  split
  · rename_i hyear
    have hread : readNumber? 4 ((padded 4 year.toNat).toList ++ '-' :: r) =
        some (year.toNat, '-' :: r) :=
      readNumber?_padded hdash r (Nat.le_of_eq (length_padded (by decide) (by omega)))
    obtain ⟨d, ds, hds, hd⟩ := padded_eq_cons 4 year.toNat
    rw [hds, List.cons_append] at hread
    rw [hds, List.cons_append, readYear?_of_digit hd, hread]
    simp only [Option.map_some, Int.toNat_of_nonneg hyear.1]
  · rename_i hyear
    have hread : readNumber? ((padded 4 year.natAbs).toList ++ '-' :: r).length
        ((padded 4 year.natAbs).toList ++ '-' :: r) = some (year.natAbs, '-' :: r) :=
      readNumber?_padded hdash r (by simp)
    split
    · rename_i hneg
      have habs : -(year.natAbs : Int) = year := by omega
      have htext : ("-" ++ padded 4 year.natAbs).toList ++ '-' :: r =
          '-' :: ((padded 4 year.natAbs).toList ++ '-' :: r) := by simp
      rw [htext, readYear?_minus, hread]
      simp only [Option.map_some, habs]
    · have habs : (year.natAbs : Int) = year := by omega
      have htext : ("+" ++ padded 4 year.natAbs).toList ++ '-' :: r =
          '+' :: ((padded 4 year.natAbs).toList ++ '-' :: r) := by simp
      rw [htext, readYear?_plus, hread]
      simp only [Option.map_some, habs]

theorem readDate?_dateText {d : Date} (h : d.isValid = true) (r : List Char) :
    readDate? ((dateText d).toList ++ 'T' :: r) = some (d, 'T' :: r) := by
  obtain ⟨hmonth, hday⟩ := Date.lt_of_isValid h
  have htext : (dateText d).toList ++ 'T' :: r = (yearText d.year).toList ++
      '-' :: ((padded 2 d.month).toList ++ '-' :: ((padded 2 d.day).toList ++ 'T' :: r)) := by
    simp [dateText]
  simp only [readDate?, htext, readYear?_yearText, separator?_cons (c := '-') rfl,
    readPair?_padded (c := '-') rfl _ hmonth, readPair?_padded (c := 'T') rfl _ hday,
    Option.bind_eq_bind, Option.bind_some, h, if_true]

/-! ## Times of day -/

theorem readFraction?_padded {width n : Nat} (hwidth : 0 < width) (hle : width ≤ 9)
    (hn : n < 10 ^ width) (r : List Char) :
    readFraction? ('.' :: ((padded width n).toList ++ 'Z' :: r)) =
      some (n * Nat.pow 10 (9 - width), 'Z' :: r) := by
  have hlength := length_padded hwidth hn
  have hdigits : ((padded width n).toList ++ 'Z' :: r).takeWhile Char.isDigit =
      (padded width n).toList := by
    rw [List.takeWhile_append_of_pos isDigit_padded, List.takeWhile_cons_of_neg (by decide),
      List.append_nil]
  have hread : readNumber? 9 ((padded width n).toList ++ 'Z' :: r) = some (n, 'Z' :: r) :=
    readNumber?_padded rfl r (Nat.le_trans (Nat.le_of_eq hlength) hle)
  simp only [readFraction?, hdigits, hread, Option.map_some, hlength]
  rw [List.drop_left' hlength]

theorem toList_point_append (s : String) (r : List Char) :
    ("." ++ s).toList ++ r = '.' :: (s.toList ++ r) := by
  simp

/-- The digits that are left out are zeros, and come back as such. -/
theorem readFraction?_fractionText {n : Nat} (hn : n < 1000000000) (r : List Char) :
    readFraction? ((fractionText n).toList ++ 'Z' :: r) = some (n, 'Z' :: r) := by
  rw [fractionText]
  split
  · rename_i hzero
    rw [hzero]
    rfl
  · split
    · rename_i hmillis
      have hback : n / 1000000 * Nat.pow 10 (9 - 3) = n := by
        rw [show Nat.pow 10 (9 - 3) = 1000000 by decide]
        omega
      rw [toList_point_append, readFraction?_padded (by decide) (by decide) (by omega), hback]
    · split
      · rename_i hmicros
        have hback : n / 1000 * Nat.pow 10 (9 - 6) = n := by
          rw [show Nat.pow 10 (9 - 6) = 1000 by decide]
          omega
        rw [toList_point_append, readFraction?_padded (by decide) (by decide) (by omega), hback]
      · rw [toList_point_append, readFraction?_padded (by decide) (by decide) hn]
        simp

theorem fractionText_eq_cons (n : Nat) (r : List Char) :
    ∃ c q, (fractionText n).toList ++ 'Z' :: r = c :: q ∧ c.isDigit = false := by
  rw [fractionText]
  repeat' split
  · exact ⟨'Z', r, by simp, rfl⟩
  all_goals exact ⟨'.', _, toList_point_append _ _, rfl⟩

/-- Hour, minute and second with a fraction, second 60 included. -/
theorem readTime?_text {hour minute second fraction : Nat} (hhour : hour ≤ 23)
    (hminute : minute ≤ 59) (hsecond : second ≤ 60) (hfraction : fraction < 1000000000)
    (r : List Char) :
    readTime? ((padded 2 hour).toList ++ ':' :: ((padded 2 minute).toList ++ ':' ::
        ((padded 2 second).toList ++ ((fractionText fraction).toList ++ 'Z' :: r)))) =
      some ((hour * 3600 + minute * 60 + min second 59, second / 60 * 1000000000 + fraction),
        'Z' :: r) := by
  have hread := readFraction?_fractionText hfraction r
  obtain ⟨c, q, htext, hc⟩ := fractionText_eq_cons fraction r
  rw [htext] at hread
  have hrange : ¬ (23 < hour ∨ 59 < minute ∨ 60 < second) := by omega
  simp only [readTime?, htext, readPair?_padded (c := ':') rfl _ (by omega : hour < 100),
    separator?_cons (c := ':') rfl, readPair?_padded (c := ':') rfl _ (by omega : minute < 100),
    readPair?_padded hc q (by omega : second < 100), hread, Option.bind_eq_bind, Option.bind_some,
    if_neg hrange]
  split
  · rename_i hleap
    subst hleap
    rfl
  · rename_i hleap
    have hshort : min second 59 = second ∧ second / 60 = 0 := by omega
    rw [hshort.1, hshort.2, Nat.zero_mul, Nat.zero_add]

/-! ## Whole timestamps -/

variable {t : Timestamp}

/-- What the clock shows makes up the second of the day; a leap second shows as second 60. -/
theorem clock_eq (h : t.IsInstant) : t.hour ≤ 23 ∧ t.minute ≤ 59 ∧ t.second ≤ 60 ∧
    t.hour * 3600 + t.minute * 60 + min t.second 59 = t.secondOfDay ∧
    t.second / 60 * 1000000000 + t.fraction = t.nanos := by
  have hnanos := h.nanos
  have hday : t.secondOfDay = t.seconds % 86400 := by
    rw [secondOfDay]
    omega
  have hminute : t.secondOfDay % 60 = t.seconds % 60 := by omega
  simp only [hour, minute, second, fraction]
  omega

theorem readOffset?_zulu : readOffset? ['Z'] = some (0, []) := by decide

/-- The text of an instant is read as that instant. -/
theorem IsInstant.parse?_text (h : t.IsInstant) : parse? t.text = some t := by
  obtain ⟨hhour, hminute, hsecond, hclock, hnanos⟩ := clock_eq h
  have hfraction : t.fraction < 1000000000 := Nat.mod_lt _ (by decide)
  have htext : t.text.toList = (dateText t.date).toList ++ 'T' :: ((padded 2 t.hour).toList ++
      ':' :: ((padded 2 t.minute).toList ++ ':' :: ((padded 2 t.second).toList ++
        ((fractionText t.fraction).toList ++ ['Z'])))) := by
    simp [text, wholeText, clockText]
  have hdate := readDate?_dateText (Date.isValid_ofDays (t.seconds / 86400))
  have htime := readTime?_text hhour hminute hsecond hfraction []
  rw [hclock, hnanos] at htime
  have hseconds : t.date.toDays * 86400 + (t.secondOfDay : Int) = t.seconds := by
    rw [date, Date.toDays_ofDays, secondOfDay]
    omega
  rw [parse?, htext, readChars?]
  simp only [date, hdate, Option.bind_eq_bind, Option.bind_some, true_or, if_true, htime,
    trimStart_cons (c := 'Z') rfl, readOffset?_zulu]
  rw [← date, hseconds, Int.sub_zero, h.inReach]
  rfl

end NoteIndex.Timestamp
