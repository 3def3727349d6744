import NoteIndex.Text.Blank
import NoteIndex.Text.Word

/-!
# Blanks and words

No blank belongs to a word, in whatever script. What trimming takes away from a text is blank. Words
end at a blank, so that a text has the words before one and those after it.
-/

namespace NoteIndex.Text

def blankCodes : List Nat :=
  [0x09, 0x0A, 0x0B, 0x0C, 0x0D, 0x20, 0x85, 0xA0, 0x1680, 0x2000, 0x2001, 0x2002, 0x2003, 0x2004,
    0x2005, 0x2006, 0x2007, 0x2008, 0x2009, 0x200A, 0x2028, 0x2029, 0x202F, 0x205F, 0x3000]

theorem mem_blankCodes {c : Char} (h : isBlank c = true) : c.toNat ∈ blankCodes := by
  rw [isBlank_iff] at h
  simp only [blankCodes, List.mem_cons, List.not_mem_nil, or_false]
  omega

/-- No blank belongs to a word. -/
theorem isWordChar_of_isBlank {c : Char} (h : isBlank c = true) : isWordChar c = false := by
  have hcodes : ∀ n ∈ blankCodes, isWordChar (Char.ofNat n) = false := by decide +kernel
  have hc := hcodes c.toNat (mem_blankCodes h)
  rwa [Char.ofNat_toNat] at hc

theorem trimStart_append (cs : List Char) :
    ∃ gap, cs = gap ++ trimStart cs ∧ ∀ c ∈ gap, isBlank c = true :=
  ⟨cs.takeWhile isBlank, List.takeWhile_append_dropWhile.symm,
    List.all_eq_true.mp List.all_takeWhile⟩

theorem append_trimEnd (cs : List Char) :
    ∃ gap, cs = trimEnd cs ++ gap ∧ ∀ c ∈ gap, isBlank c = true := by
  obtain ⟨gap, hcs, hgap⟩ := trimStart_append cs.reverse
  have hreverse := congrArg List.reverse hcs
  rw [List.reverse_reverse, List.reverse_append] at hreverse
  exact ⟨gap.reverse, hreverse, fun c hc => hgap c (List.mem_reverse.mp hc)⟩

/-- What trimming takes away is blank. -/
theorem append_trim_append (cs : List Char) : ∃ before after, cs = before ++ (trim cs ++ after) ∧
    (∀ c ∈ before, isBlank c = true) ∧ ∀ c ∈ after, isBlank c = true := by
  obtain ⟨before, hcs, hbefore⟩ := trimStart_append cs
  obtain ⟨after, hstart, hafter⟩ := append_trimEnd (trimStart cs)
  exact ⟨before, after, hcs.trans (congrArg _ hstart), hbefore, hafter⟩

theorem isBlank_of_trim_eq_nil {cs : List Char} (h : trim cs = []) :
    ∀ c ∈ cs, isBlank c = true := by
  obtain ⟨before, after, hcs, hbefore, hafter⟩ := append_trim_append cs
  rw [h, List.nil_append] at hcs
  rw [hcs]
  exact List.forall_mem_append.mpr ⟨hbefore, hafter⟩

theorem countWords_append {c : Char} (hc : isBlank c = true) (fresh : Bool) (a r : List Char) :
    countWords fresh (a ++ c :: r) = countWords fresh a + wordCount r := by
  induction a generalizing fresh with
  | nil => simp only [List.nil_append, countWords, hc, if_true, Nat.zero_add, wordCount]
  | cons d a ih =>
    rw [List.cons_append, countWords, countWords]
    split
    · exact ih true
    · rw [ih, Nat.add_right_comm]

theorem wordCount_append {c : Char} (hc : isBlank c = true) (a r : List Char) :
    wordCount (a ++ c :: r) = wordCount a + wordCount r :=
  countWords_append hc true a r

end NoteIndex.Text
