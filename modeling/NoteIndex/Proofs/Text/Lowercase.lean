import Mathlib
import NoteIndex.Text.Blank
import NoteIndex.Text.Lowercase

/-!
# Trimmed and lower-cased text

What trimming and lower-casing leave is not changed by doing them again. For lower case this is a
fact about the table of mappings: no code point mapped to is one that is mapped on. Sets of code
points are held as the bits of a number here, so that it takes one look at two numbers.
-/

namespace NoteIndex.Text

/-! ## Trimmed text -/

/-- The text has no blank at either end. -/
structure Trimmed (cs : List Char) : Prop where
  first : ∀ c ∈ cs.head?, isBlank c = false
  last : ∀ c ∈ cs.getLast?, isBlank c = false

theorem trimStart_suffix (cs : List Char) : trimStart cs <:+ cs := List.dropWhile_suffix _

theorem trimEnd_initial (cs : List Char) : trimEnd cs <+: cs := List.rdropWhile_prefix isBlank cs

theorem trim_sublist (cs : List Char) : (trim cs).Sublist cs :=
  (trimEnd_initial _).sublist.trans (trimStart_suffix cs).sublist

theorem trimmed_trim (cs : List Char) : Trimmed (trim cs) where
  first c hc := by
    obtain ⟨r, hr⟩ := trimEnd_initial (trimStart cs)
    have hhead : c ∈ (trimStart cs).head? := by
      rw [← hr]
      exact List.mem_head?_append_of_mem_head? hc
    have hnot := List.head?_dropWhile_not isBlank cs
    rw [show (cs.dropWhile isBlank).head? = some c from hhead] at hnot
    simpa using hnot
  last c hc := by
    obtain ⟨hne, hlast⟩ := List.mem_getLast?_eq_getLast hc
    have hnot := List.rdropWhile_last_not isBlank (trimStart cs) hne
    rw [hlast]
    exact Bool.eq_false_iff.mpr hnot

theorem Trimmed.trim_eq {cs : List Char} (h : Trimmed cs) : trim cs = cs := by
  have hstart : trimStart cs = cs := by
    cases cs with
    | nil => rfl
    | cons c r => exact List.dropWhile_cons_of_neg (Bool.eq_false_iff.mp (h.first c rfl))
  rw [trim, hstart]
  refine (List.rdropWhile_eq_self_iff (p := isBlank) (l := cs)).mpr fun hne => ?_
  exact Bool.eq_false_iff.mp (h.last _ (List.getLast_mem_getLast? hne))

theorem trim_of_not_blank {cs : List Char} (h : ∀ c ∈ cs, isBlank c = false) : trim cs = cs :=
  Trimmed.trim_eq
    ⟨fun c hc => h c (List.mem_of_mem_head? hc), fun c hc => h c (List.mem_of_mem_getLast? hc)⟩

/-! ## The code points of the table -/

/-- The numbers `first`, `first + step`, …, so many of them, as a set of bits. -/
def bits (first step : Nat) : Nat → Nat
  | 0 => 0
  | k + 1 => bits first step k ||| 1 <<< (first + k * step)

theorem testBit_bits (first step count n : Nat) :
    (bits first step count).testBit n = true ↔ ∃ i < count, n = first + i * step := by
  induction count with
  | zero => simp [bits]
  | succ k ih =>
    rw [bits, Nat.testBit_or, Bool.or_eq_true, ih, Nat.one_shiftLeft, Nat.testBit_two_pow,
      decide_eq_true_iff]
    constructor
    · rintro (⟨i, hi, rfl⟩ | rfl)
      · exact ⟨i, by omega, rfl⟩
      · exact ⟨k, by omega, rfl⟩
    · rintro ⟨i, hi, rfl⟩
      rcases Nat.lt_succ_iff_lt_or_eq.mp hi with hlt | rfl
      · exact .inl ⟨i, hlt, rfl⟩
      · exact .inr rfl

/-- The bits of all progressions `(first, step, count)` together. -/
def allBits (ps : List (Nat × Nat × Nat)) : Nat :=
  ps.foldr (fun p m => bits p.1 p.2.1 p.2.2 ||| m) 0

theorem testBit_allBits (ps : List (Nat × Nat × Nat)) (n : Nat) :
    (allBits ps).testBit n = true ↔ ∃ p ∈ ps, ∃ i < p.2.2, n = p.1 + i * p.2.1 := by
  induction ps with
  | nil => simp [allBits]
  | cons p ps ih =>
    change (bits p.1 p.2.1 p.2.2 ||| allBits ps).testBit n = true ↔ _
    rw [Nat.testBit_or, Bool.or_eq_true, testBit_bits, ih, List.exists_mem_cons_iff]

/-- The code points that have a one-to-one mapping. -/
def mappedCodes : Nat :=
  allBits (lowerRuns.map fun (first, last, step, _) => (first, step, (last - first) / step + 1))

/-- The code points that these are mapped to. -/
def targetCodes : Nat :=
  allBits (lowerRuns.map fun (first, last, step, target) =>
    (target, step, (last - first) / step + 1))

/-- What no code point is mapped to besides: surrogates, the capital letters of ASCII, the capital I
with a dot, and blanks. -/
def otherCodes : Nat :=
  allBits [(0xD800, 1, 0x800), (0x41, 1, 26), (0x130, 1, 1), (0x09, 1, 5), (0x20, 1, 1),
    (0x85, 1, 1), (0xA0, 1, 1), (0x1680, 1, 1), (0x2000, 1, 11), (0x2028, 1, 2), (0x202F, 1, 1),
    (0x205F, 1, 1), (0x3000, 1, 1)]

/-- What is computed from the table; all else that is said of it follows. -/
theorem table_computed :
    targetCodes &&& (mappedCodes ||| otherCodes) = 0 ∧ targetCodes < 2 ^ 0x20000 ∧
      targetCodes.testBit 35 = false ∧ mappedCodes.testBit 'Σ'.toNat = true ∧
      mappedCodes.testBit (Char.ofNat 0x307).toNat = false ∧
      mappedCodes.testBit 'ς'.toNat = false ∧ mappedCodes.testBit 'σ'.toNat = false := by
  refine ⟨?_, ?_, ?_, ?_, ?_, ?_, ?_⟩ <;> decide +kernel

theorem lt_of_testBit {m n k : Nat} (h : m.testBit n = true) (hm : m < 2 ^ k) : n < k :=
  (Nat.pow_lt_pow_iff_right one_lt_two).mp ((Nat.ge_two_pow_of_testBit h).trans_lt hm)

theorem not_testBit_of_target {n : Nat} (h : targetCodes.testBit n = true) :
    mappedCodes.testBit n = false ∧ otherCodes.testBit n = false := by
  have hapart := congrArg (·.testBit n) table_computed.1
  simpa [h] using hapart

theorem lowerCode_cases (n : Nat) :
    lowerCode n = n ∨
      mappedCodes.testBit n = true ∧ targetCodes.testBit (lowerCode n) = true := by
  rw [lowerCode]
  split
  · rename_i first last step target hrun
    have htakes := List.find?_some hrun
    simp only [Bool.and_eq_true, decide_eq_true_eq, beq_iff_eq] at htakes
    obtain ⟨⟨hfirst, hlast⟩, hstep⟩ := htakes
    have hmem := List.mem_of_find?_eq_some hrun
    have hcount : (n - first) / step < (last - first) / step + 1 :=
      Nat.lt_succ_of_le (Nat.div_le_div_right (Nat.sub_le_sub_right hlast first))
    have hoffset : (n - first) / step * step = n - first :=
      Nat.div_mul_cancel (Nat.dvd_of_mod_eq_zero hstep)
    refine .inr ⟨(testBit_allBits _ _).mpr ⟨_, List.mem_map_of_mem hmem, _, hcount, ?_⟩,
      (testBit_allBits _ _).mpr ⟨_, List.mem_map_of_mem hmem, _, hcount, ?_⟩⟩
    · rw [hoffset, Nat.add_sub_cancel' hfirst]
    · rw [hoffset]
  · exact .inl rfl

theorem lowerCode_of_not_mapped {n : Nat} (h : mappedCodes.testBit n = false) :
    lowerCode n = n := by
  rcases lowerCode_cases n with hsame | ⟨hmapped, -⟩
  · exact hsame
  · rw [h] at hmapped
    cases hmapped

theorem exists_offset (first count n : Nat) :
    (∃ i < count, n = first + i * 1) ↔ first ≤ n ∧ n < first + count := by
  constructor
  · rintro ⟨i, hi, rfl⟩
    omega
  · rintro ⟨hfirst, hlt⟩
    exact ⟨n - first, by omega, by omega⟩

/-- A target is a scalar value, no letter that is mapped in some other way, and no blank. -/
theorem target_cases {n : Nat} (h : targetCodes.testBit n = true) :
    n.isValidChar ∧ ¬ (0x41 ≤ n ∧ n ≤ 0x5A) ∧ n ≠ 0x130 ∧ isBlank (.ofNat n) = false := by
  have hnot := (not_testBit_of_target h).2
  rw [Bool.eq_false_iff, Ne, otherCodes, testBit_allBits] at hnot
  simp only [List.exists_mem_cons_iff, exists_offset, List.not_mem_nil, false_and, exists_false,
    or_false] at hnot
  have hlt : n < 0x20000 := lt_of_testBit h table_computed.2.1
  have hvalid : n.isValidChar := by
    rw [Nat.isValidChar]
    omega
  refine ⟨hvalid, by omega, by omega, ?_⟩
  rw [Bool.eq_false_iff, Ne, isBlank_iff, Char.toNat_ofNat, if_pos hvalid]
  omega

/-! ## Settled characters -/

/-- Lower-casing leaves the character alone, wherever it stands. -/
def Settled (c : Char) : Prop := c ≠ 'Σ' ∧ lowerChar c = [c]

theorem isUpper_iff (c : Char) : c.isUpper = true ↔ 0x41 ≤ c.toNat ∧ c.toNat ≤ 0x5A := by
  simp [Char.isUpper, UInt32.le_iff_toNat_le]

theorem settled_of_ascii {c : Char} (h : c.toNat < 0x80) (hc : c.toLower = c) : Settled c := by
  refine ⟨?_, ?_⟩
  · rintro rfl
    exact absurd h (by decide)
  · rw [lowerChar, if_pos h, hc]

theorem settled_of_not_mapped {c : Char} (h : ¬ c.toNat < 0x80) (hdotted : c ≠ 'İ')
    (hmapped : mappedCodes.testBit c.toNat = false) : Settled c := by
  refine ⟨?_, ?_⟩
  · rintro rfl
    exact Bool.false_ne_true (hmapped.symm.trans table_computed.2.2.2.1)
  · rw [lowerChar, if_neg h, if_neg hdotted, lowerCode_of_not_mapped hmapped, Char.ofNat_toNat]

theorem settled_of_target {n : Nat} (h : targetCodes.testBit n = true) :
    Settled (.ofNat n) ∧ isBlank (.ofNat n) = false := by
  obtain ⟨hvalid, hupper, hdotted, hblank⟩ := target_cases h
  have hn : (Char.ofNat n).toNat = n := by rw [Char.toNat_ofNat, if_pos hvalid]
  refine ⟨?_, hblank⟩
  by_cases hascii : n < 0x80
  · refine settled_of_ascii (hn.trans_lt hascii) (Char.toLower_eq_of_not_isUpper ?_)
    rw [isUpper_iff, hn]
    exact hupper
  · refine settled_of_not_mapped (by rwa [hn]) (fun he => hdotted ?_) ?_
    · rw [← hn, he]
      rfl
    · rw [hn]
      exact (not_testBit_of_target h).1

/-- Only the capital letters of ASCII have another lower-case form in it. -/
theorem toNat_toLower_of_ne {c : Char} (hc : c.toLower ≠ c) :
    c.toLower.toNat = c.toNat + 32 ∧ 0x41 ≤ c.toNat ∧ c.toNat ≤ 0x5A := by
  have hisUpper : c.isUpper = true := by
    by_contra hnot
    exact hc (Char.toLower_eq_of_not_isUpper hnot)
  obtain ⟨hfirst, hlast⟩ := (isUpper_iff c).mp hisUpper
  have hvalid : (c.toNat + 32).isValidChar := .inl (by omega)
  refine ⟨?_, hfirst, hlast⟩
  rw [Char.toLower_eq_of_isUpper hisUpper, Char.toNat_ofNat, if_pos hvalid]

theorem settled_toLower {c : Char} (hc : c.toLower ≠ c) :
    Settled c.toLower ∧ isBlank c.toLower = false := by
  obtain ⟨hcode, hfirst, hlast⟩ := toNat_toLower_of_ne hc
  refine ⟨settled_of_ascii (by omega) (Char.toLower_toLower_eq_toLower c), ?_⟩
  rw [Bool.eq_false_iff, Ne, isBlank_iff, hcode]
  omega

/-- A character is left alone, or what it gives is left alone and is no blank. -/
theorem lowerChar_cases (c : Char) :
    lowerChar c = [c] ∨
      lowerChar c ≠ [] ∧ ∀ d ∈ lowerChar c, Settled d ∧ isBlank d = false := by
  rw [lowerChar]
  split
  · by_cases hc : c.toLower = c
    · exact .inl (congrArg (fun d => [d]) hc)
    · exact .inr ⟨List.cons_ne_nil _ _, List.forall_mem_singleton.mpr (settled_toLower hc)⟩
  · split
    · have hi : Settled 'i' := settled_of_ascii (by decide) (by decide)
      have hdot : Settled (.ofNat 0x307) :=
        settled_of_not_mapped (by decide) (by decide) table_computed.2.2.2.2.1
      refine .inr ⟨List.cons_ne_nil _ _, List.forall_mem_cons.mpr ⟨⟨hi, by decide⟩, ?_⟩⟩
      exact List.forall_mem_singleton.mpr ⟨hdot, by decide⟩
    · rcases lowerCode_cases c.toNat with hsame | ⟨-, htarget⟩
      · rw [hsame, Char.ofNat_toNat]
        exact .inl rfl
      · exact .inr ⟨List.cons_ne_nil _ _,
          List.forall_mem_singleton.mpr (settled_of_target htarget)⟩

/-! ## Lower-cased texts -/

/-- Each character is written as some settled ones, which are blanks only for a blank. -/
theorem lowerFrom_cons (before : List Char) (c : Char) (r : List Char) :
    ∃ p, lowerFrom before (c :: r) = p ++ lowerFrom (c :: before) r ∧ p ≠ [] ∧
      ∀ d ∈ p, Settled d ∧ (isBlank c = false → isBlank d = false) := by
  rw [lowerFrom]
  split
  · obtain ⟨hς, hσ⟩ := table_computed.2.2.2.2.2
    have hfinal : Settled 'ς' ∧ isBlank 'ς' = false :=
      ⟨settled_of_not_mapped (by decide) (by decide) hς, by decide⟩
    have hsmall : Settled 'σ' ∧ isBlank 'σ' = false :=
      ⟨settled_of_not_mapped (by decide) (by decide) hσ, by decide⟩
    refine ⟨[_], rfl, List.cons_ne_nil _ _, List.forall_mem_singleton.mpr ?_⟩
    split
    · exact ⟨hfinal.1, fun _ => hfinal.2⟩
    · exact ⟨hsmall.1, fun _ => hsmall.2⟩
  · rename_i hc
    refine ⟨lowerChar c, rfl, ?_⟩
    rcases lowerChar_cases c with hsame | ⟨hne, hall⟩
    · rw [hsame]
      exact ⟨List.cons_ne_nil _ _, List.forall_mem_singleton.mpr ⟨⟨hc, hsame⟩, id⟩⟩
    · exact ⟨hne, fun d hd => ⟨(hall d hd).1, fun _ => (hall d hd).2⟩⟩

theorem settled_lowerFrom (before cs : List Char) : ∀ d ∈ lowerFrom before cs, Settled d := by
  induction cs generalizing before with
  | nil => exact fun d hd => absurd hd List.not_mem_nil
  | cons c r ih =>
    obtain ⟨p, hp, -, hall⟩ := lowerFrom_cons before c r
    rw [hp]
    exact List.forall_mem_append.mpr ⟨fun d hd => (hall d hd).1, ih (c :: before)⟩

theorem settled_lower (cs : List Char) : ∀ d ∈ lower cs, Settled d := settled_lowerFrom [] cs

theorem lowerFrom_of_settled (before : List Char) {cs : List Char} (h : ∀ c ∈ cs, Settled c) :
    lowerFrom before cs = cs := by
  induction cs generalizing before with
  | nil => rfl
  | cons c r ih =>
    obtain ⟨⟨hsigma, hc⟩, hr⟩ := List.forall_mem_cons.mp h
    rw [lowerFrom, if_neg hsigma, hc, ih (c :: before) hr]
    rfl

theorem lower_of_settled {cs : List Char} (h : ∀ c ∈ cs, Settled c) : lower cs = cs :=
  lowerFrom_of_settled [] h

theorem lowerFrom_eq_nil_iff (before cs : List Char) : lowerFrom before cs = [] ↔ cs = [] := by
  cases cs with
  | nil => exact Iff.rfl
  | cons c r =>
    obtain ⟨p, hp, hne, -⟩ := lowerFrom_cons before c r
    rw [hp]
    simp [hne]

theorem last_lowerFrom (before : List Char) {cs : List Char}
    (h : ∀ c ∈ cs.getLast?, isBlank c = false) :
    ∀ d ∈ (lowerFrom before cs).getLast?, isBlank d = false := by
  induction cs generalizing before with
  | nil => exact h
  | cons c r ih =>
    obtain ⟨p, hp, -, hall⟩ := lowerFrom_cons before c r
    rw [hp]
    intro d hd
    cases r with
    | nil =>
      rw [lowerFrom, List.append_nil] at hd
      exact (hall d (List.mem_of_mem_getLast? hd)).2 (h c rfl)
    | cons c' r =>
      have hne : lowerFrom (c :: before) (c' :: r) ≠ [] :=
        fun he => List.cons_ne_nil c' r ((lowerFrom_eq_nil_iff _ _).mp he)
      rw [List.getLast?_append_of_ne_nil _ hne] at hd
      refine ih (c :: before) (fun b hb => h b ?_) d hd
      rwa [List.getLast?_cons_cons]

/-- No other character becomes a hash sign. -/
theorem hash_not_mem_lowerChar {c : Char} (h : c ≠ '#') : '#' ∉ lowerChar c := by
  rw [lowerChar]
  split
  · rw [List.mem_singleton]
    intro he
    obtain ⟨hcode, hfirst, -⟩ := toNat_toLower_of_ne (c := c) (by rw [← he]; exact Ne.symm h)
    rw [← he] at hcode
    have : '#'.toNat = 35 := rfl
    omega
  · split
    · decide
    · rw [List.mem_singleton]
      intro he
      rcases lowerCode_cases c.toNat with hsame | ⟨-, htarget⟩
      · rw [hsame, Char.ofNat_toNat] at he
        exact h he.symm
      · have hcode : (Char.ofNat (lowerCode c.toNat)).toNat = 35 := congrArg Char.toNat he.symm
        rw [Char.toNat_ofNat, if_pos (target_cases htarget).1] at hcode
        rw [hcode] at htarget
        exact Bool.false_ne_true (table_computed.2.2.1.symm.trans htarget)

theorem head_lower_ne_hash {cs : List Char} (h : cs.head? ≠ some '#') :
    (lower cs).head? ≠ some '#' := by
  cases cs with
  | nil => exact h
  | cons c r =>
    have hc : c ≠ '#' := fun he => h (congrArg some he)
    rw [lower, lowerFrom]
    split
    · split <;> exact fun he => absurd (Option.some.inj he) (by decide)
    · have hne : lowerChar c ≠ [] := by
        rcases lowerChar_cases c with hsame | ⟨hne, -⟩
        · rw [hsame]
          exact List.cons_ne_nil _ _
        · exact hne
      rw [List.head?_append_of_ne_nil _ hne]
      exact fun he => hash_not_mem_lowerChar hc (List.mem_of_mem_head? he)

theorem Trimmed.lower {cs : List Char} (h : Trimmed cs) : Trimmed (lower cs) where
  first d hd := by
    cases cs with
    | nil => exact h.first d hd
    | cons c r =>
      obtain ⟨p, hp, hne, hall⟩ := lowerFrom_cons [] c r
      rw [Text.lower, hp, List.head?_append_of_ne_nil _ hne] at hd
      exact (hall d (List.mem_of_mem_head? hd)).2 (h.first c rfl)
  last := last_lowerFrom [] h.last

end NoteIndex.Text
