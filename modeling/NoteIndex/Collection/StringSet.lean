/-!
# Finite sets of strings

A set is the strictly ascending list of its members, in code point order, so two sets with the
same members are equal. `mem_insert`, `mem_erase` and `ext` are all that a reader needs.
-/

namespace NoteIndex

structure StringSet where
  toList : List String
  ascending : toList.Pairwise (· < ·)
  deriving DecidableEq

namespace StringSet

/-- Puts a string in its place, once. -/
def place (x : String) : List String → List String
  | [] => [x]
  | y :: r => if x < y then x :: y :: r else if x = y then y :: r else y :: place x r

theorem mem_place (x z : String) (ys : List String) : z ∈ place x ys ↔ z = x ∨ z ∈ ys := by
  induction ys with
  | nil => simp [place]
  | cons y r ih =>
    simp only [place]
    split
    · simp
    · split
      · rename_i h
        subst h
        simp
      · simp only [List.mem_cons, ih]
        exact or_left_comm

theorem ascending_place (x : String) {ys : List String} (h : ys.Pairwise (· < ·)) :
    (place x ys).Pairwise (· < ·) := by
  induction ys with
  | nil => simp [place]
  | cons y r ih =>
    obtain ⟨hy, hr⟩ := List.pairwise_cons.mp h
    simp only [place]
    split
    · rename_i hxy
      refine List.pairwise_cons.mpr ⟨fun z hz => ?_, h⟩
      rcases List.mem_cons.mp hz with rfl | hz
      · exact hxy
      · exact String.lt_trans hxy (hy z hz)
    · split
      · exact h
      · rename_i hxy hne
        refine List.pairwise_cons.mpr ⟨fun z hz => ?_, ih hr⟩
        rcases (mem_place x z r).mp hz with rfl | hz
        · rcases Std.lt_trichotomy y z with hlt | heq | hgt
          · exact hlt
          · exact absurd heq.symm hne
          · exact absurd hgt hxy
        · exact hy z hz

def empty : StringSet := ⟨[], .nil⟩

instance : EmptyCollection StringSet := ⟨empty⟩
instance : Inhabited StringSet := ⟨empty⟩
instance : Membership String StringSet := ⟨fun s x => x ∈ s.toList⟩
instance (x : String) (s : StringSet) : Decidable (x ∈ s) :=
  inferInstanceAs (Decidable (x ∈ s.toList))

def contains (s : StringSet) (x : String) : Bool := decide (x ∈ s)

def isEmpty (s : StringSet) : Bool := s.toList.isEmpty

def size (s : StringSet) : Nat := s.toList.length

def insert (s : StringSet) (x : String) : StringSet :=
  ⟨place x s.toList, ascending_place x s.ascending⟩

def erase (s : StringSet) (x : String) : StringSet :=
  ⟨s.toList.filter (· ≠ x), s.ascending.filter _⟩

def ofList (xs : List String) : StringSet := xs.foldl insert empty

theorem mem_toList (s : StringSet) (x : String) : x ∈ s.toList ↔ x ∈ s := Iff.rfl

@[simp] theorem not_mem_empty (x : String) : x ∉ (∅ : StringSet) := List.not_mem_nil

@[simp] theorem mem_insert (s : StringSet) (x z : String) : z ∈ s.insert x ↔ z = x ∨ z ∈ s :=
  mem_place x z s.toList

@[simp] theorem mem_erase (s : StringSet) (x z : String) : z ∈ s.erase x ↔ z ∈ s ∧ z ≠ x := by
  simp [← mem_toList, erase]

theorem mem_foldl_insert (xs : List String) (s : StringSet) (z : String) :
    z ∈ xs.foldl insert s ↔ z ∈ xs ∨ z ∈ s := by
  induction xs generalizing s with
  | nil => simp
  | cons x r ih =>
    rw [List.foldl_cons, ih, mem_insert, List.mem_cons]
    exact or_left_comm.trans or_assoc.symm

@[simp] theorem mem_ofList (xs : List String) (z : String) : z ∈ ofList xs ↔ z ∈ xs := by
  rw [ofList, mem_foldl_insert]
  exact or_iff_left (not_mem_empty z)

/-- A strictly ascending list is determined by its members. -/
theorem eq_of_ascending {xs ys : List String} (hx : xs.Pairwise (· < ·))
    (hy : ys.Pairwise (· < ·)) (h : ∀ z, z ∈ xs ↔ z ∈ ys) : xs = ys := by
  induction xs generalizing ys with
  | nil =>
    cases ys with
    | nil => rfl
    | cons y r => exact absurd ((h y).mpr (List.mem_cons_self ..)) List.not_mem_nil
  | cons x r ih =>
    cases ys with
    | nil => exact absurd ((h x).mp (List.mem_cons_self ..)) List.not_mem_nil
    | cons y q =>
      obtain ⟨hxr, hr⟩ := List.pairwise_cons.mp hx
      obtain ⟨hyq, hq⟩ := List.pairwise_cons.mp hy
      have hxy : x = y := by
        rcases List.mem_cons.mp ((h x).mp (List.mem_cons_self ..)) with e | hm
        · exact e
        · rcases List.mem_cons.mp ((h y).mpr (List.mem_cons_self ..)) with e | hm'
          · exact e.symm
          · exact absurd (String.lt_trans (hxr y hm') (hyq x hm)) (String.lt_irrefl x)
      subst hxy
      refine congrArg (x :: ·) (ih hr hq fun z => ⟨fun hz => ?_, fun hz => ?_⟩)
      · rcases List.mem_cons.mp ((h z).mp (List.mem_cons_of_mem _ hz)) with e | hm
        · subst e
          exact absurd (hxr z hz) (String.lt_irrefl z)
        · exact hm
      · rcases List.mem_cons.mp ((h z).mpr (List.mem_cons_of_mem _ hz)) with e | hm
        · subst e
          exact absurd (hyq z hz) (String.lt_irrefl z)
        · exact hm

@[ext] theorem ext {s t : StringSet} (h : ∀ z, z ∈ s ↔ z ∈ t) : s = t := by
  have e := eq_of_ascending s.ascending t.ascending h
  cases s; cases t; cases e; rfl

theorem ofList_toList (s : StringSet) : ofList s.toList = s := by
  ext z
  exact mem_ofList s.toList z

theorem isEmpty_iff (s : StringSet) : s.isEmpty = true ↔ s = ∅ := by
  constructor
  · intro h
    ext z
    rw [← mem_toList, List.isEmpty_iff.mp h]
    simp
  · rintro rfl
    rfl

theorem exists_mem {s : StringSet} (h : s ≠ ∅) : ∃ x, x ∈ s := by
  obtain ⟨xs, hx⟩ := s
  cases xs with
  | nil => exact absurd rfl h
  | cons x r => exact ⟨x, List.mem_cons_self ..⟩

end StringSet

end NoteIndex
