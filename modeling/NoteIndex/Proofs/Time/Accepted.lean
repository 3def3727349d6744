import NoteIndex.Proofs.Note.Encoded

/-!
# Only instants are read

Whatever text is read as a timestamp, the outcome is an instant: the fraction stays below a second,
or below two where the second is number 60, and an offset of whole minutes leaves that the last
second of its minute. So the two timestamps of a note that was read are instants.
-/

namespace NoteIndex

namespace Timestamp

open Text

theorem ofDigitChars_lt {ds : List Char} (h : ∀ d ∈ ds, d.isDigit = true) :
    Nat.ofDigitChars 10 ds 0 < 10 ^ ds.length := by
  induction ds using List.reverseRecOn with
  | nil => decide
  | append_singleton ds d ih =>
    rw [List.forall_mem_append] at h
    have hd := Char.isDigit_iff_toNat.mp (h.2 d (List.mem_singleton_self d))
    have hds := ih h.1
    have h0 : '0'.toNat = 48 := rfl
    have h9 : '9'.toNat = 57 := rfl
    simp only [Nat.ofDigitChars_append, Nat.ofDigitChars_cons, Nat.ofDigitChars_nil,
      List.length_append, List.length_singleton, pow_succ]
    omega

/-- A number is below the power of ten that has as many zeros as it has digits. -/
theorem readNumber?_lt {width n : Nat} {cs r : List Char} (h : readNumber? width cs = some (n, r)) :
    n < 10 ^ ((cs.take width).takeWhile Char.isDigit).length := by
  simp only [readNumber?] at h
  split at h
  · cases h
  · cases h
    have hlt := ofDigitChars_lt (List.all_eq_true.mp
      (List.all_takeWhile (p := Char.isDigit) (l := cs.take width)))
    simpa only [Nat.ofDigitChars_eq_foldl, Nat.mul_comm] using hlt

theorem readFraction?_lt {n : Nat} {cs r : List Char} (h : readFraction? cs = some (n, r)) :
    n < 1000000000 := by
  rw [readFraction?.eq_def] at h
  split at h
  · rename_i digits
    obtain ⟨⟨k, q⟩, hread, hk⟩ := Option.map_eq_some_iff.mp h
    obtain ⟨rfl, -⟩ := Prod.mk.inj hk
    have hlt := readNumber?_lt hread
    -- as many digits as are read, and zeros up to nine places
    have hplaces : ((digits.take 9).takeWhile Char.isDigit).length +
        (9 - (digits.takeWhile Char.isDigit).length) ≤ 9 := by
      have htake : ((digits.take 9).takeWhile Char.isDigit).length ≤ 9 :=
        (List.takeWhile_sublist _).length_le.trans (List.length_take_le 9 digits)
      have hrun : ((digits.take 9).takeWhile Char.isDigit).length ≤
          (digits.takeWhile Char.isDigit).length := by
        rw [← List.take_takeWhile]
        exact List.length_take_le' ..
      omega
    calc k * Nat.pow 10 (9 - (digits.takeWhile Char.isDigit).length)
        < 10 ^ ((digits.take 9).takeWhile Char.isDigit).length *
            10 ^ (9 - (digits.takeWhile Char.isDigit).length) :=
          Nat.mul_lt_mul_of_pos_right hlt (Nat.pow_pos (by decide))
      _ ≤ 10 ^ 9 := by
          rw [← pow_add]
          exact Nat.pow_le_pow_right (by decide) hplaces
  · cases h
    decide

theorem readTime?_nanos {second nanos : Nat} {cs r : List Char}
    (h : readTime? cs = some ((second, nanos), r)) :
    nanos < 1000000000 ∨ (second % 60 = 59 ∧ nanos < 2000000000) := by
  simp only [readTime?, Option.bind_eq_bind, Option.bind_eq_some_iff] at h
  obtain ⟨⟨hour, _⟩, -, _, -, ⟨minute, _⟩, -, _, -, ⟨s, _⟩, -, ⟨fraction, _⟩, hfraction, h⟩ := h
  have hlt := readFraction?_lt hfraction
  split at h
  · cases h
  · split at h <;> cases h
    · right
      omega
    · exact .inl hlt

theorem readHours?_minutes {n : Nat} {cs r : List Char} (h : readHours? cs = some (n, r)) :
    n % 60 = 0 := by
  simp only [readHours?, Option.bind_eq_bind, Option.bind_eq_some_iff] at h
  obtain ⟨⟨hours, _⟩, -, ⟨minutes, _⟩, -, h⟩ := h
  split at h <;> cases h
  omega

/-- Offsets are whole minutes. -/
theorem readOffset?_minutes {offset : Int} {cs r : List Char}
    (h : readOffset? cs = some (offset, r)) : offset % 60 = 0 := by
  rw [readOffset?.eq_def] at h
  split at h
  · cases h
    rfl
  · split at h
    · split at h
      · cases h
        rfl
      · split at h
        · obtain ⟨⟨n, _⟩, hn, h⟩ := Option.map_eq_some_iff.mp h
          cases h
          have := readHours?_minutes hn
          omega
        · split at h
          · obtain ⟨⟨n, _⟩, hn, h⟩ := Option.map_eq_some_iff.mp h
            cases h
            have := readHours?_minutes hn
            omega
          · cases h
    · cases h

theorem isInstant_of_parse? {text : String} {t : Timestamp} (h : parse? text = some t) :
    t.IsInstant := by
  simp only [parse?, readChars?, Option.bind_eq_bind, Option.bind_eq_some_iff] at h
  obtain ⟨⟨date, cs⟩, -, h⟩ := h
  cases cs with
  | nil => cases h
  | cons c cs =>
    simp only at h
    split at h
    · simp only [Option.bind_eq_some_iff] at h
      obtain ⟨⟨⟨second, nanos⟩, _⟩, htime, ⟨offset, _⟩, hoffset, h⟩ := h
      have hnanos := readTime?_nanos htime
      have hminutes := readOffset?_minutes hoffset
      simp only at h
      split at h
      · rename_i hreach
        cases h
        refine ⟨(Bool.and_eq_true_iff.mp hreach).2, ?_⟩
        change nanos < 1000000000 ∨
          ((date.toDays * 86400 + (second : Int) - offset) % 60 = 59 ∧ nanos < 2000000000)
        omega
      · cases h
    · cases h

end Timestamp

namespace Note

theorem isInstant_of_required {e : Json.Entry} {t : Timestamp}
    (h : e.required Json.timestamp? = some t) : t.IsInstant := by
  cases e with
  | missing => cases h
  | repeated => cases h
  | present j =>
    obtain ⟨text, -, htext⟩ := Option.bind_eq_some_iff.mp h
    exact Timestamp.isInstant_of_parse? htext

/-- The timestamps of a note that was read are instants. -/
theorem isInstant_of_decode? {text : String} {n : Note} (h : decode? text = some n) :
    n.created.IsInstant ∧ n.modified.IsInstant := by
  obtain ⟨j, -, h⟩ := Option.bind_eq_some_iff.mp h
  simp only [ofJson?, Option.bind_eq_bind, Option.bind_eq_some_iff] at h
  obtain ⟨entries, -, h⟩ := h
  split at h
  · simp only [Option.bind_eq_some_iff] at h
    obtain ⟨_, -, _, -, _, -, _, -, _, -, created, hcreated, modified, hmodified, h⟩ := h
    cases h
    exact ⟨isInstant_of_required hcreated, isInstant_of_required hmodified⟩
  · cases h

end Note

end NoteIndex
