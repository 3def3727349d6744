import NoteIndex.Collection.StableSort

/-!
# What a stable sort does

Elements of which none comes before another keep their order, whatever the relation. Where "comes
before" is a strict weak order on the elements of the list, none of them stands after one that it
comes before. It need not be one on other elements.
-/

namespace NoteIndex

universe u

variable {α : Type u} {before : α → α → Bool}

/-- Sorting by a key gives the same whether the key is looked up before or on the way. -/
theorem insertDown_map {β : Type u} (f : β → α) (x : β) (ys : List β) :
    insertDown before (f x) (ys.map f) =
      (insertDown (fun a b => before (f a) (f b)) x ys).map f := by
  induction ys with
  | nil => rfl
  | cons y r ih =>
    rw [List.map_cons, insertDown, insertDown]
    split
    · rw [ih, List.map_cons]
    · rfl

theorem sortDown_map {β : Type u} (f : β → α) (xs : List β) :
    sortDown before (xs.map f) = (sortDown (fun a b => before (f a) (f b)) xs).map f := by
  induction xs with
  | nil => rfl
  | cons x r ih => rw [List.map_cons, sortDown, ih, insertDown_map, sortDown]

theorem sortStable_map {β : Type u} (f : β → α) (xs : List β) :
    sortStable before (xs.map f) = (sortStable (fun a b => before (f a) (f b)) xs).map f := by
  rw [sortStable, ← List.map_reverse, sortDown_map, ← List.map_reverse, sortStable]

/-- The elements that are selected keep their order when none of them comes before another. -/
theorem filter_insertDown {p : α → Bool} {x : α} {ys : List α}
    (h : ∀ y ∈ ys, p x = true → p y = true → before x y = false) :
    (insertDown before x ys).filter p = (x :: ys).filter p := by
  induction ys with
  | nil => rfl
  | cons y r ih =>
    rw [List.forall_mem_cons] at h
    rw [insertDown]
    split
    · rename_i hbefore
      have hnot : ¬(p x = true ∧ p y = true) := fun hp => by simp [h.1 hp.1 hp.2] at hbefore
      rw [List.filter_cons, ih h.2]
      cases hx : p x <;> cases hy : p y <;> simp_all
    · rfl

theorem filter_sortDown {p : α → Bool} {xs : List α}
    (h : ∀ a ∈ xs, ∀ b ∈ xs, p a = true → p b = true → before a b = false) :
    (sortDown before xs).filter p = xs.filter p := by
  induction xs with
  | nil => rfl
  | cons x r ih =>
    have hr : (sortDown before r).filter p = r.filter p := ih fun a ha b hb =>
      h a (List.mem_cons_of_mem x ha) b (List.mem_cons_of_mem x hb)
    rw [sortDown, filter_insertDown, List.filter_cons, List.filter_cons, hr]
    intro y hy hpx hpy
    have hy : y ∈ r := (sortDown_perm before r).mem_iff.mp hy
    exact h x (List.mem_cons_self ..) y (List.mem_cons_of_mem x hy) hpx hpy

theorem filter_sortStable {p : α → Bool} {xs : List α}
    (h : ∀ a ∈ xs, ∀ b ∈ xs, p a = true → p b = true → before a b = false) :
    (sortStable before xs).filter p = xs.filter p := by
  rw [sortStable, List.filter_reverse, filter_sortDown fun a ha b hb =>
    h a (List.mem_reverse.mp ha) b (List.mem_reverse.mp hb), List.filter_reverse,
    List.reverse_reverse]

/-! ## Sorting by a strict weak order -/

theorem Ranks.subset {xs ys : List α} (h : Ranks before xs) (hys : ys ⊆ xs) : Ranks before ys where
  asymm := fun a ha b hb => h.asymm a (hys ha) b (hys hb)
  trans := fun a ha b hb c hc => h.trans a (hys ha) b (hys hb) c (hys hc)

theorem ranks_map_iff {β : Type u} {f : β → α} {xs : List β} :
    Ranks before (xs.map f) ↔ Ranks (fun a b => before (f a) (f b)) xs := by
  constructor
  · intro h
    exact
      { asymm := fun _ ha _ hb => h.asymm _ (List.mem_map_of_mem ha) _ (List.mem_map_of_mem hb)
        trans := fun _ ha _ hb _ hc => h.trans _ (List.mem_map_of_mem ha) _
          (List.mem_map_of_mem hb) _ (List.mem_map_of_mem hc) }
  · intro h
    constructor
    · simp only [List.forall_mem_map]
      exact h.asymm
    · simp only [List.forall_mem_map]
      exact h.trans

theorem sortBy?_map {β : Type u} (f : β → α) (xs : List β) :
    sortBy? before (xs.map f) =
      (sortBy? (fun a b => before (f a) (f b)) xs).map fun ys => ys.map f := by
  rw [sortBy?, sortBy?, List.length_map, sortStable_map]
  simp only [ranks_map_iff]
  split <;> rfl

theorem pairwise_insertDown {x : α} {ys : List α} (h : Ranks before (x :: ys))
    (hys : ys.Pairwise fun a b => before a b = false) :
    (insertDown before x ys).Pairwise fun a b => before a b = false := by
  induction ys with
  | nil => exact List.pairwise_singleton ..
  | cons y r ih =>
    have hx : x ∈ x :: y :: r := List.mem_cons_self ..
    have hy : y ∈ x :: y :: r := List.mem_cons_of_mem x (List.mem_cons_self ..)
    have hr : ∀ z ∈ r, z ∈ x :: y :: r := fun z hz => by simp [hz]
    rw [List.pairwise_cons] at hys
    rw [insertDown]
    split
    · rename_i hbefore
      refine List.pairwise_cons.mpr ⟨fun z hz => ?_, ih (h.subset ?_) hys.2⟩
      · rcases List.mem_cons.mp ((insertDown_perm before x r).mem_iff.mp hz) with rfl | hz
        · exact h.asymm z hx y hy hbefore
        · exact hys.1 z hz
      · exact List.cons_subset_cons x (List.subset_cons_self y r)
    · rename_i hbefore
      have hbefore : before x y = false := Bool.eq_false_iff.mpr hbefore
      refine List.pairwise_cons.mpr ⟨fun z hz => ?_, List.pairwise_cons.mpr hys⟩
      rcases List.mem_cons.mp hz with rfl | hz
      · exact hbefore
      · exact h.trans z (hr z hz) y hy x hx (hys.1 z hz) hbefore

theorem pairwise_sortDown {xs : List α} (h : Ranks before xs) :
    (sortDown before xs).Pairwise fun a b => before a b = false := by
  induction xs with
  | nil => exact .nil
  | cons x r ih =>
    refine pairwise_insertDown (h.subset ?_) (ih (h.subset (List.subset_cons_self x r)))
    exact List.cons_subset_cons x (sortDown_perm before r).subset

/-- No element stands after one that it comes before. -/
theorem pairwise_sortStable {xs : List α} (h : Ranks before xs) :
    (sortStable before xs).Pairwise fun a b => before b a = false :=
  List.pairwise_reverse.mpr (pairwise_sortDown (h.subset (List.reverse_perm xs).subset))

end NoteIndex
