/-!
# Stable sorting

Insertion sort by a relation "comes before": each element goes behind those in front of it, but for
the ones at their end that it comes before. Elements of which neither comes before the other keep
their order. That the outcome is in order takes a strict weak order of the elements.

A longer list is only sure to be sorted at all by such an order. Another relation may contradict
itself before the sort is done, and then the program stops.
-/

namespace NoteIndex

universe u

variable {α : Type u}

/-- Puts `x` into a list that is in order from the end, behind all that it comes before. -/
def insertDown (before : α → α → Bool) (x : α) : List α → List α
  | [] => [x]
  | y :: r => if before x y then y :: insertDown before x r else x :: y :: r

/-- The elements in order from the end, where the first of the list are the latest. -/
def sortDown (before : α → α → Bool) : List α → List α
  | [] => []
  | x :: r => insertDown before x (sortDown before r)

def sortStable (before : α → α → Bool) (xs : List α) : List α :=
  (sortDown before xs.reverse).reverse

theorem insertDown_perm (before : α → α → Bool) (x : α) (ys : List α) :
    (insertDown before x ys).Perm (x :: ys) := by
  induction ys with
  | nil => exact .refl _
  | cons y r ih =>
    simp only [insertDown]
    split
    · exact (ih.cons y).trans (.swap x y r)
    · exact .refl _

theorem sortDown_perm (before : α → α → Bool) (xs : List α) :
    (sortDown before xs).Perm xs := by
  induction xs with
  | nil => exact .refl _
  | cons x r ih => exact (insertDown_perm before x _).trans (ih.cons x)

theorem sortStable_perm (before : α → α → Bool) (xs : List α) :
    (sortStable before xs).Perm xs :=
  (List.reverse_perm _).trans ((sortDown_perm before _).trans (List.reverse_perm xs))

/-! ## Relations to sort by -/

/-- The relation is a strict weak order on the elements of the list. -/
structure Ranks (before : α → α → Bool) (xs : List α) : Prop where
  asymm : ∀ a ∈ xs, ∀ b ∈ xs, before a b = true → before b a = false
  trans : ∀ a ∈ xs, ∀ b ∈ xs, ∀ c ∈ xs, before b a = false → before c b = false →
    before c a = false

section Rank

variable {before : α → α → Bool} {xs ys : List α} {a b c : α}

/-- How many elements come before `a`. -/
def rank (before : α → α → Bool) (xs : List α) (a : α) : Nat := xs.countP (before · a)

/-- What comes before `a` comes before all that do not come before `a`. -/
theorem Ranks.before_of_before (h : Ranks before xs) (ha : a ∈ xs) (hb : b ∈ xs) (hc : c ∈ xs)
    (hba : before b a = false) (hca : before c a = true) : before c b = true := by
  cases hcb : before c b with
  | true => rfl
  | false => exact (h.trans a ha b hb c hc hba hcb).symm.trans hca

theorem Ranks.rank_le (h : Ranks before xs) (ha : a ∈ xs) (hb : b ∈ xs)
    (hba : before b a = false) : rank before xs a ≤ rank before xs b :=
  List.countP_mono_left fun _ hc => h.before_of_before ha hb hc hba

theorem Ranks.irrefl (h : Ranks before xs) (ha : a ∈ xs) : before a a = false := by
  cases haa : before a a with
  | false => rfl
  | true => exact haa.symm.trans (h.asymm a ha a ha haa)

theorem Ranks.rank_lt (h : Ranks before xs) (ha : a ∈ xs) (hb : b ∈ xs)
    (hab : before a b = true) : rank before xs a < rank before xs b := by
  have hmono (c : α) (hc : c ∈ xs) : before c a = true → before c b = true :=
    h.before_of_before ha hb hc (h.asymm a ha b hb hab)
  have hself : before a a = false := h.irrefl ha
  -- `a` itself comes before `b` and not before `a`
  obtain ⟨front, back, rfl⟩ := List.append_of_mem ha
  have hfront : front.countP (before · a) ≤ front.countP (before · b) :=
    List.countP_mono_left fun c hc => hmono c (List.mem_append_left _ hc)
  have hback : back.countP (before · a) ≤ back.countP (before · b) :=
    List.countP_mono_left fun c hc => hmono c (List.mem_append_right _ (List.mem_cons_of_mem a hc))
  simp only [rank, List.countP_append, List.countP_cons, hself, hab, if_true, Bool.false_eq_true,
    if_false]
  omega

/-- Whether the elements stand to each other as their ranks do. -/
def areRanked (before : α → α → Bool) (xs : List α) : Bool :=
  let ranked := xs.map fun a => (rank before xs a, a)
  ranked.all fun a => ranked.all fun b => before a.2 b.2 == decide (a.1 < b.1)

theorem areRanked_iff : areRanked before xs = true ↔
    ∀ a ∈ xs, ∀ b ∈ xs, before a b = decide (rank before xs a < rank before xs b) := by
  simp [areRanked]

theorem ranks_iff_areRanked : Ranks before xs ↔ areRanked before xs = true := by
  rw [areRanked_iff]
  constructor
  · intro h a ha b hb
    cases hab : before a b with
    | true => exact (decide_eq_true (h.rank_lt ha hb hab)).symm
    | false => exact (decide_eq_false (Nat.not_lt.mpr (h.rank_le hb ha hab))).symm
  · intro h
    refine ⟨fun a ha b hb hab => ?_, fun a ha b hb c hc hba hcb => ?_⟩
    · rw [h a ha b hb, decide_eq_true_iff] at hab
      rw [h b hb a ha, decide_eq_false_iff_not]
      omega
    · rw [h b hb a ha, decide_eq_false_iff_not] at hba
      rw [h c hc b hb, decide_eq_false_iff_not] at hcb
      rw [h c hc a ha, decide_eq_false_iff_not]
      omega

instance : Decidable (Ranks before xs) := decidable_of_iff _ ranks_iff_areRanked.symm

/-- The elements in order. Up to twenty are put where they belong one by one, by whatever relation.
More of them are sorted by a strict weak order. By another relation nothing is promised of them,
neither an order nor that the program goes on, and there is no outcome here. -/
def sortBy? (before : α → α → Bool) (xs : List α) : Option (List α) :=
  if xs.length ≤ 20 ∨ Ranks before xs then some (sortStable before xs) else none

theorem sortBy?_of_ranks (h : Ranks before xs) : sortBy? before xs = some (sortStable before xs) :=
  if_pos (.inr h)

theorem sortBy?_eq_none_iff : sortBy? before xs = none ↔ 20 < xs.length ∧ ¬Ranks before xs := by
  rw [sortBy?, ite_eq_right_iff, ← Nat.not_le, ← not_or]
  simp

theorem eq_sortStable_of_sortBy? (h : sortBy? before xs = some ys) :
    ys = sortStable before xs := by
  rw [sortBy?] at h
  split at h
  · exact (Option.some.inj h).symm
  · cases h

end Rank

end NoteIndex
