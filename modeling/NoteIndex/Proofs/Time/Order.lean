import NoteIndex.Proofs.Time.Accepted

/-!
# Written instants in order

How the texts of two instants compare as texts. Behind the year all numbers have a fixed width, so
that there the texts stand as the instants do, in a leap second too, as far as milliseconds show.
The years need not: those of more than four digits have a plus sign and negative ones a minus sign,
and as characters these come in that order before all digits.
-/

namespace NoteIndex

theorem ordering_eq {o o' : Ordering} (hlt : o = .lt ↔ o' = .lt) (hgt : o = .gt ↔ o' = .gt) :
    o = o' := by
  cases o <;> cases o' <;> simp_all

namespace Text

theorem compare_list_lt_iff (xs ys : List Char) : compare xs ys = .lt ↔ xs < ys := by
  induction xs generalizing ys with
  | nil => cases ys <;> simp
  | cons x xs ih =>
    cases ys with
    | nil => simp
    | cons y ys =>
      rw [List.compare_cons_cons, Ordering.then_eq_lt, compare_lt_iff_lt, compare_eq_iff_eq, ih,
        List.cons_lt_cons_iff]

theorem compare_toList (s t : String) : compare s t = compare s.toList t.toList := by
  refine ordering_eq ?_ ?_
  · rw [compare_lt_iff_lt, compare_list_lt_iff, String.lt_iff_toList_lt]
  · rw [compare_gt_iff_gt, Std.OrientedCmp.gt_iff_lt, compare_list_lt_iff, String.lt_iff_toList_lt]

section Append

variable {xs ys : List Char}

theorem compare_cons_self (c : Char) (u v : List Char) :
    compare (c :: u) (c :: v) = compare u v := by
  rw [List.compare_cons_cons, compare_eq_iff_eq.mpr rfl]
  rfl

theorem compare_append_of_length (h : xs.length = ys.length) (u v : List Char) :
    compare (xs ++ u) (ys ++ v) = (compare xs ys).then (compare u v) := by
  induction xs generalizing ys with
  | nil =>
    obtain rfl := List.eq_nil_of_length_eq_zero h.symm
    rfl
  | cons x xs ih =>
    cases ys with
    | nil => cases h
    | cons y ys =>
      rw [List.cons_append, List.cons_append, List.compare_cons_cons, List.compare_cons_cons,
        ih (Nat.succ.inj h), Ordering.then_assoc]

/-- A word that ends comes before one that goes on, if what ends it is below all characters of the
words. -/
theorem compare_append_cons {c : Char} (hxs : ∀ x ∈ xs, c < x) (hys : ∀ y ∈ ys, c < y)
    (u v : List Char) :
    compare (xs ++ c :: u) (ys ++ c :: v) = (compare xs ys).then (compare u v) := by
  induction xs generalizing ys with
  | nil =>
    cases ys with
    | nil => exact compare_cons_self c u v
    | cons y ys =>
      have hlt : compare c y = .lt := compare_lt_iff_lt.mpr (hys y List.mem_cons_self)
      rw [List.nil_append, List.cons_append, List.compare_cons_cons, hlt, List.compare_nil_cons]
      rfl
  | cons x xs ih =>
    cases ys with
    | nil =>
      have hgt : compare x c = .gt := compare_gt_iff_gt.mpr (hxs x List.mem_cons_self)
      rw [List.nil_append, List.cons_append, List.compare_cons_cons, hgt, List.compare_cons_nil]
      rfl
    | cons y ys =>
      rw [List.cons_append, List.cons_append, List.compare_cons_cons, List.compare_cons_cons,
        ih (fun x hx => hxs x (List.mem_cons_of_mem _ hx))
          (fun y hy => hys y (List.mem_cons_of_mem _ hy)), Ordering.then_assoc]

end Append

end Text

namespace Timestamp

open Text

/-! ## Numbers -/

/-- The first of two digits in any base decides, or else the second. -/
theorem compare_add_mul {b x y m n : Nat} (hm : m < b) (hn : n < b) :
    Ord.compare (b * x + m) (b * y + n) = (Ord.compare x y).then (Ord.compare m n) := by
  have hless {x y m n : Nat} (hm : m < b) (hxy : x < y) : b * x + m < b * y + n := by
    have := Nat.mul_le_mul_left b (Nat.succ_le_of_lt hxy)
    rw [Nat.mul_succ] at this
    omega
  rcases lt_trichotomy x y with hxy | rfl | hxy
  · rw [compare_lt_iff_lt.mpr hxy, compare_lt_iff_lt.mpr (hless hm hxy)]
    rfl
  · rw [compare_eq_iff_eq.mpr rfl, Ordering.eq_then]
    refine ordering_eq ?_ ?_
    · rw [compare_lt_iff_lt, compare_lt_iff_lt, Nat.add_lt_add_iff_left]
    · rw [compare_gt_iff_gt, compare_gt_iff_gt, Nat.add_lt_add_iff_left]
  · rw [compare_gt_iff_gt.mpr hxy, compare_gt_iff_gt.mpr (hless hn hxy)]
    rfl

theorem compare_digit {d e : Char} (hd : d.isDigit = true) (he : e.isDigit = true) :
    Ord.compare d e = Ord.compare (d.toNat - '0'.toNat) (e.toNat - '0'.toNat) := by
  rw [Char.isDigit_iff_toNat] at hd he
  refine ordering_eq ?_ ?_
  · rw [compare_lt_iff_lt, compare_lt_iff_lt, Nat.sub_lt_sub_iff_right hd.1]
    rfl
  · rw [compare_gt_iff_gt, compare_gt_iff_gt, Nat.sub_lt_sub_iff_right he.1]
    rfl

theorem ofDigitChars_cons_zero (d : Char) (ds : List Char) : Nat.ofDigitChars 10 (d :: ds) 0 =
    10 ^ ds.length * (d.toNat - '0'.toNat) + Nat.ofDigitChars 10 ds 0 := by
  rw [Nat.ofDigitChars_cons, Nat.mul_zero, Nat.zero_add, Nat.ofDigitChars_eq_ofDigitChars_zero]

/-- As many digits stand as the numbers that they write. -/
theorem compare_digits {ds es : List Char} (hds : ∀ d ∈ ds, d.isDigit = true)
    (hes : ∀ e ∈ es, e.isDigit = true) (hlength : ds.length = es.length) :
    Ord.compare ds es = Ord.compare (Nat.ofDigitChars 10 ds 0) (Nat.ofDigitChars 10 es 0) := by
  induction ds generalizing es with
  | nil =>
    obtain rfl := List.eq_nil_of_length_eq_zero hlength.symm
    rfl
  | cons d ds ih =>
    cases es with
    | nil => cases hlength
    | cons e es =>
      rw [List.forall_mem_cons] at hds hes
      have hlength := Nat.succ.inj hlength
      have hes_lt := ofDigitChars_lt hes.2
      rw [← hlength] at hes_lt
      rw [List.compare_cons_cons, ih hds.2 hes.2 hlength, compare_digit hds.1 hes.1,
        ofDigitChars_cons_zero, ofDigitChars_cons_zero, ← hlength,
        compare_add_mul (ofDigitChars_lt hds.2) hes_lt]

variable {width m n : Nat}

theorem compare_padded (hwidth : 0 < width) (hm : m < 10 ^ width) (hn : n < 10 ^ width)
    (u v : List Char) :
    Ord.compare ((padded width m).toList ++ u) ((padded width n).toList ++ v) =
      (Ord.compare m n).then (Ord.compare u v) := by
  have hlength := (length_padded hwidth hm).trans (length_padded hwidth hn).symm
  rw [compare_append_of_length hlength, compare_digits isDigit_padded isDigit_padded hlength,
    ofDigitChars_padded, ofDigitChars_padded]

/-! ## Years -/

theorem yearText_inj {x y : Int} (h : yearText x = yearText y) : x = y := by
  have hx := readYear?_yearText x []
  rw [h, readYear?_yearText y []] at hx
  exact (Prod.mk.inj (Option.some.inj hx)).1.symm

/-- Behind its first character, which may be a sign, a year has digits only. -/
theorem yearText_eq_cons (x : Int) :
    ∃ c ds, (yearText x).toList = c :: ds ∧ ∀ d ∈ ds, d.isDigit = true := by
  rw [yearText]
  split
  · obtain ⟨d, ds, hds, -⟩ := padded_eq_cons 4 x.toNat
    exact ⟨d, ds, hds, fun e he => isDigit_padded e (hds ▸ List.mem_cons_of_mem d he)⟩
  · split
    · exact ⟨'-', (padded 4 x.natAbs).toList, by simp, isDigit_padded⟩
    · exact ⟨'+', (padded 4 x.natAbs).toList, by simp, isDigit_padded⟩

theorem dash_lt {d : Char} (hd : d.isDigit = true) : '-' < d := by
  have h0 : '-' < '0' := by decide
  exact lt_of_lt_of_le h0 (Char.isDigit_iff_toNat.mp hd).1

/-- The dash that ends a year is below the digits, so a shorter year ends before a longer one. -/
theorem compare_yearText (x y : Int) (u v : List Char) :
    Ord.compare ((yearText x).toList ++ '-' :: u) ((yearText y).toList ++ '-' :: v) =
      (Ord.compare (yearText x) (yearText y)).then (Ord.compare u v) := by
  obtain ⟨c, cs, hx, hcs⟩ := yearText_eq_cons x
  obtain ⟨d, ds, hy, hds⟩ := yearText_eq_cons y
  rw [compare_toList, hx, hy, List.cons_append, List.cons_append, List.compare_cons_cons,
    List.compare_cons_cons, compare_append_cons (fun e he => dash_lt (hcs e he))
      (fun e he => dash_lt (hds e he)), Ordering.then_assoc]

theorem yearText_of_four {x : Int} (h : 0 ≤ x ∧ x ≤ 9999) : yearText x = padded 4 x.toNat :=
  if_pos h

theorem compare_yearText_of_four {x y : Int} (hx : 0 ≤ x ∧ x ≤ 9999) (hy : 0 ≤ y ∧ y ≤ 9999) :
    Ord.compare (yearText x) (yearText y) = Ord.compare x y := by
  have hcompare : Ord.compare (padded 4 x.toNat).toList (padded 4 y.toNat).toList =
      Ord.compare x.toNat y.toNat := by
    have h := compare_padded (by decide : 0 < 4) (by omega : x.toNat < 10 ^ 4)
      (by omega : y.toNat < 10 ^ 4) [] []
    rwa [List.append_nil, List.append_nil, List.compare_nil_nil, Ordering.then_eq] at h
  rw [compare_toList, yearText_of_four hx, yearText_of_four hy, hcompare]
  refine ordering_eq ?_ ?_
  · rw [compare_lt_iff_lt, compare_lt_iff_lt]
    omega
  · rw [compare_gt_iff_gt, compare_gt_iff_gt]
    omega

theorem toList_yearText_of_neg {x : Int} (h : x < 0) :
    (yearText x).toList = '-' :: (padded 4 x.natAbs).toList := by
  simp [yearText, h, Int.not_le.mpr h]

/-- Before a year of four digits all years are in order, the negative ones too. -/
theorem compare_yearText_of_le {x y : Int} (h : x ≤ y) (hy : 0 ≤ y ∧ y ≤ 9999) :
    Ord.compare (yearText x) (yearText y) ≠ .gt := by
  by_cases hx : 0 ≤ x
  · rw [compare_yearText_of_four ⟨hx, h.trans hy.2⟩ hy, ne_eq, compare_gt_iff_gt]
    omega
  · obtain ⟨d, ds, hds, hd⟩ := padded_eq_cons 4 y.toNat
    rw [compare_toList, toList_yearText_of_neg (Int.not_le.mp hx), yearText_of_four hy, hds,
      List.compare_cons_cons, compare_lt_iff_lt.mpr (dash_lt hd)]
    nofun

/-- After the year 9999 the texts begin anew, before all others. -/
theorem compare_yearText_gt {x y : Int} (hx : x ≤ 9999) (hy : 9999 < y) :
    Ord.compare (yearText x) (yearText y) = .gt := by
  have htext : (yearText y).toList = '+' :: (padded 4 y.natAbs).toList := by
    simp [yearText, show ¬(0 ≤ y ∧ y ≤ 9999) by omega, show ¬y < 0 by omega]
  have hplus : '+' < '-' := by decide
  obtain ⟨c, cs, hcs, hc⟩ : ∃ c cs, (yearText x).toList = c :: cs ∧ '+' < c := by
    by_cases h0 : 0 ≤ x
    · rw [yearText_of_four ⟨h0, hx⟩]
      obtain ⟨d, ds, hds, hd⟩ := padded_eq_cons 4 x.toNat
      exact ⟨d, ds, hds, hplus.trans (dash_lt hd)⟩
    · exact ⟨'-', (padded 4 x.natAbs).toList, toList_yearText_of_neg (Int.not_le.mp h0), hplus⟩
  rw [compare_toList, htext, hcs, List.compare_cons_cons, compare_gt_iff_gt.mpr hc]
  rfl

end Timestamp

/-! ## Days -/

namespace Date

variable {d e : Date}

/-- The dates of one year stand as their days. -/
theorem compare_toDays (hd : d.isValid = true) (he : e.isValid = true) (hyear : d.year = e.year) :
    compare d.toDays e.toDays = (compare d.month e.month).then (compare d.day e.day) := by
  rcases lt_trichotomy d.month e.month with h | h | h
  · rw [compare_lt_iff_lt.mpr h, compare_lt_iff_lt.mpr (toDays_lt_of_month_lt hd he hyear h)]
    rfl
  · rw [compare_eq_iff_eq.mpr h, Ordering.eq_then]
    simp only [toDays, hyear, h]
    refine ordering_eq ?_ ?_
    · rw [compare_lt_iff_lt, compare_lt_iff_lt]
      omega
    · rw [compare_gt_iff_gt, compare_gt_iff_gt]
      omega
  · rw [compare_gt_iff_gt.mpr h, compare_gt_iff_gt.mpr (toDays_lt_of_month_lt he hd hyear.symm h)]
    rfl

end Date

/-! ## Instants -/

namespace Timestamp

open Text

/-- The order by seconds, then by whole milliseconds. -/
def compareMillis (s t : Timestamp) : Ordering :=
  (Ord.compare s.seconds t.seconds).then (Ord.compare (s.nanos / 1000000) (t.nanos / 1000000))

def year (t : Timestamp) : Int := t.date.year

variable {s t : Timestamp}

theorem compareMillis_ne_gt (h : s.compare t ≠ .gt) : s.compareMillis t ≠ .gt := by
  simp only [compare, compareMillis, ne_eq, Ordering.then_eq_gt, compare_gt_iff_gt,
    compare_eq_iff_eq] at h ⊢
  omega

theorem year_le_of_compare (h : s.compare t ≠ .gt) : s.year ≤ t.year := by
  simp only [compare, ne_eq, Ordering.then_eq_gt, compare_gt_iff_gt, compare_eq_iff_eq] at h
  exact Date.year_le_of_le (by omega)

/-- The year of an instant decides before all else, so it can be compared beforehand. -/
theorem compareMillis_eq_then (s t : Timestamp) :
    s.compareMillis t = (Ord.compare s.year t.year).then (s.compareMillis t) := by
  have hst : s.seconds ≤ t.seconds → s.year ≤ t.year := fun h => Date.year_le_of_le (by omega)
  have hts : t.seconds ≤ s.seconds → t.year ≤ s.year := fun h => Date.year_le_of_le (by omega)
  rw [compareMillis]
  refine ordering_eq ?_ ?_
  · simp only [Ordering.then_eq_lt, compare_lt_iff_lt, compare_eq_iff_eq]
    omega
  · simp only [Ordering.then_eq_gt, compare_gt_iff_gt, compare_eq_iff_eq]
    omega

/-- The number of the second and the milliseconds that are shown, a leap second as number 60. -/
theorem compare_second (hs : s.IsInstant) (ht : t.IsInstant) :
    (Ord.compare s.second t.second).then
        (Ord.compare (s.fraction / 1000000) (t.fraction / 1000000)) =
      (Ord.compare (s.secondOfDay % 60) (t.secondOfDay % 60)).then
        (Ord.compare (s.nanos / 1000000) (t.nanos / 1000000)) := by
  have hleap (t : Timestamp) : t.secondOfDay % 60 = t.seconds % 60 := by
    rw [secondOfDay]
    omega
  have hsnanos := hs.nanos
  have htnanos := ht.nanos
  rw [← hleap] at hsnanos htnanos
  simp only [second, fraction]
  refine ordering_eq ?_ ?_
  · simp only [Ordering.then_eq_lt, compare_lt_iff_lt, compare_eq_iff_eq]
    omega
  · simp only [Ordering.then_eq_gt, compare_gt_iff_gt, compare_eq_iff_eq]
    omega

theorem compare_secondOfDay (s t : Timestamp) : Ord.compare s.secondOfDay t.secondOfDay =
    (Ord.compare s.hour t.hour).then ((Ord.compare s.minute t.minute).then
      (Ord.compare (s.secondOfDay % 60) (t.secondOfDay % 60))) := by
  have hsplit (t : Timestamp) :
      t.secondOfDay = 60 * (60 * t.hour + t.minute) + t.secondOfDay % 60 := by
    rw [hour, minute]
    omega
  have hsecond (t : Timestamp) : t.secondOfDay % 60 < 60 := Nat.mod_lt _ (by decide)
  have hminute (t : Timestamp) : t.minute < 60 := Nat.mod_lt _ (by decide)
  conv_lhs => rw [hsplit s, hsplit t]
  rw [compare_add_mul (hsecond s) (hsecond t), compare_add_mul (hminute s) (hminute t),
    Ordering.then_assoc]

theorem compare_seconds (s t : Timestamp) : Ord.compare s.seconds t.seconds =
    (Ord.compare s.date.toDays t.date.toDays).then
      (Ord.compare s.secondOfDay t.secondOfDay) := by
  simp only [date, Date.toDays_ofDays, secondOfDay]
  refine ordering_eq ?_ ?_
  · simp only [Ordering.then_eq_lt, compare_lt_iff_lt, compare_eq_iff_eq]
    omega
  · simp only [Ordering.then_eq_gt, compare_gt_iff_gt, compare_eq_iff_eq]
    omega

theorem toList_millisText (t : Timestamp) : t.millisText.toList = (yearText t.year).toList ++
    '-' :: ((padded 2 t.date.month).toList ++ '-' :: ((padded 2 t.date.day).toList ++
      'T' :: ((padded 2 t.hour).toList ++ ':' :: ((padded 2 t.minute).toList ++
        ':' :: ((padded 2 t.second).toList ++
          '.' :: ((padded 3 (t.fraction / 1000000)).toList ++ ['Z'])))))) := by
  simp [millisText, wholeText, dateText, clockText, year]

/-- The year decides as a text; within a year the texts stand as the instants, down to
milliseconds. -/
theorem compare_millisText (hs : s.IsInstant) (ht : t.IsInstant) :
    Ord.compare s.millisText t.millisText =
      (Ord.compare (yearText s.year) (yearText t.year)).then (s.compareMillis t) := by
  have hwidth : 0 < 2 := by decide
  have hdate {t : Timestamp} : t.date.isValid = true := Date.isValid_ofDays _
  have hmonth {t : Timestamp} : t.date.month < 10 ^ 2 := (Date.lt_of_isValid hdate).1
  have hday {t : Timestamp} : t.date.day < 10 ^ 2 := (Date.lt_of_isValid hdate).2
  have hclock {t : Timestamp} (h : t.IsInstant) :
      t.hour < 10 ^ 2 ∧ t.minute < 10 ^ 2 ∧ t.second < 10 ^ 2 := by
    obtain ⟨hhour, hminute, hsecond, -⟩ := clock_eq h
    omega
  have hmillis {t : Timestamp} : t.fraction / 1000000 < 10 ^ 3 := by
    rw [fraction]
    omega
  obtain ⟨hsh, hsm, hss⟩ := hclock hs
  obtain ⟨hth, htm, hts⟩ := hclock ht
  rw [compare_toList, toList_millisText, toList_millisText, compare_yearText,
    compare_padded hwidth hmonth hmonth, compare_cons_self, compare_padded hwidth hday hday,
    compare_cons_self, compare_padded hwidth hsh hth, compare_cons_self,
    compare_padded hwidth hsm htm, compare_cons_self, compare_padded hwidth hss hts,
    compare_cons_self, compare_padded (by decide) hmillis hmillis, compare_cons_self,
    List.compare_nil_nil, Ordering.then_eq]
  by_cases hyear : s.year = t.year
  · rw [compareMillis, compare_seconds, Date.compare_toDays hdate hdate hyear, compare_secondOfDay]
    simp only [Ordering.then_assoc, compare_second hs ht]
  · have hne : Ord.compare (yearText s.year) (yearText t.year) ≠ .eq := fun heq =>
      hyear (yearText_inj (compare_eq_iff_eq.mp heq))
    cases hcompare : Ord.compare (yearText s.year) (yearText t.year)
    case eq => exact absurd hcompare hne
    all_goals rfl

end Timestamp

end NoteIndex
