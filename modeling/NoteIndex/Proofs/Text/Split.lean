import NoteIndex.Text.Split

/-!
# Pieces between separators

A text is cut into pieces as a list is: none of them has the separator in it, and joined by it they
give the text again.
-/

namespace NoteIndex.Text

theorem splitOn_eq (sep : Char) (cs : List Char) : splitOn sep cs = cs.splitOn sep := by
  induction cs with
  | nil => rfl
  | cons c r ih =>
    rw [splitOn, List.splitOn_cons_eq_if_modifyHead, ← ih]
    by_cases hc : c = sep
    · simp [hc]
    · rw [if_neg hc, if_neg (by simpa using hc)]
      cases h : splitOn sep r with
      | nil => exact absurd h (splitOn_ne_nil sep r)
      | cons p ps => rfl

theorem splitOn_intercalate {sep : Char} {pieces : List (List Char)} (hne : pieces ≠ [])
    (h : ∀ p ∈ pieces, sep ∉ p) : splitOn sep ([sep].intercalate pieces) = pieces := by
  rw [splitOn_eq]
  exact List.splitOn_intercalate sep h hne

theorem intercalate_splitOn (sep : Char) (cs : List Char) :
    [sep].intercalate (splitOn sep cs) = cs := by
  rw [splitOn_eq]
  exact List.intercalate_splitOn sep

theorem not_mem_of_mem_splitOn {sep : Char} {cs : List Char} :
    ∀ p ∈ splitOn sep cs, sep ∉ p := by
  induction cs with
  | nil => simp [splitOn]
  | cons c r ih =>
    rw [splitOn]
    split
    · exact List.forall_mem_cons.mpr ⟨List.not_mem_nil, ih⟩
    · rename_i hc
      cases h : splitOn sep r with
      | nil => exact absurd h (splitOn_ne_nil sep r)
      | cons p ps =>
        rw [h, List.forall_mem_cons] at ih
        refine List.forall_mem_cons.mpr ⟨?_, ih.2⟩
        simp [Ne.symm hc, ih.1]

theorem subset_of_mem_splitOn {sep : Char} {cs : List Char} : ∀ p ∈ splitOn sep cs, p ⊆ cs := by
  induction cs with
  | nil => simp [splitOn]
  | cons c r ih =>
    have hr : ∀ p ∈ splitOn sep r, p ⊆ c :: r :=
      fun p hp => List.subset_cons_of_subset c (ih p hp)
    rw [splitOn]
    split
    · exact List.forall_mem_cons.mpr ⟨List.nil_subset _, hr⟩
    · cases h : splitOn sep r with
      | nil => exact absurd h (splitOn_ne_nil sep r)
      | cons p ps =>
        rw [h, List.forall_mem_cons] at hr
        exact List.forall_mem_cons.mpr ⟨List.cons_subset.mpr ⟨List.mem_cons_self, hr.1⟩, hr.2⟩

end NoteIndex.Text
