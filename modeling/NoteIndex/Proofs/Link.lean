import Mathlib.Data.List.Infix
import NoteIndex.Record

/-!
# Links in a body

Links are found from left to right and do not overlap, so a pair of opening brackets that is left
open takes in everything up to the next closing ones, a whole link that stands before them included.
Where none is left open, what stands between double brackets is found.
-/

namespace NoteIndex

namespace Link

theorem takeWhile_closed {inner : List Char} (h : ']' ∉ inner) (rest : List Char) :
    (inner ++ ']' :: rest).takeWhile (· != ']') = inner := by
  rw [List.takeWhile_append_of_pos fun c hc => bne_iff_ne.mpr (ne_of_mem_of_not_mem hc h)]
  exact List.append_nil inner

/-- The inside of a link is what is between its brackets, without a closing one among it. -/
theorem inside?_eq_some_iff (cs inner : List Char) :
    inside? cs = some inner ↔ inner ≠ [] ∧ ']' ∉ inner ∧
      ∃ after, cs = '[' :: '[' :: (inner ++ ']' :: ']' :: after) := by
  constructor
  · intro h
    rw [inside?.eq_def] at h
    split at h
    · rename_i r
      simp only [List.isEmpty_iff] at h
      split at h
      · cases h
      · rename_i hne
        split at h
        · rename_i after hafter
          cases h
          have hinitial : r.takeWhile (· != ']') <+: r := List.takeWhile_prefix _
          have hr := List.prefix_append_drop hinitial
          rw [hafter] at hr
          refine ⟨hne, fun hmem => ?_, after, by rw [← hr]⟩
          have hall := List.all_eq_true.mp (List.all_takeWhile (p := (· != ']')) (l := r))
          exact absurd (hall _ hmem) (by decide)
        · cases h
    · cases h
  · rintro ⟨hne, hclosed, after, rfl⟩
    simp [inside?, takeWhile_closed hclosed, hne]

/-- No pair of opening brackets is left open, nor does the text end on the first of a pair: past
each of them comes a closing bracket. -/
def NoneOpen (before : List Char) : Prop :=
  ∀ v, '[' :: '[' :: v <:+ before ++ ['['] → ']' ∈ v

instance : DecidablePred NoneOpen := fun before =>
  decidable_of_iff (∀ s ∈ (before ++ ['[']).tails, s.take 2 = ['[', '['] → ']' ∈ s.drop 2) (by
    constructor
    · intro h v hv
      exact h _ ((List.mem_tails ..).mpr hv) rfl
    · intro h s hs htake
      refine h _ ?_
      rw [← List.take_append_drop 2 s, htake] at hs
      exact (List.mem_tails ..).mp hs)

theorem NoneOpen.of_append {p q : List Char} (h : NoneOpen (p ++ q)) : NoneOpen q := by
  intro v hv
  refine h v (hv.trans ?_)
  rw [List.append_assoc]
  exact List.suffix_append p _

/-- A link that begins where none is left open ends before the next pair of opening brackets. -/
theorem before_of_inside? {before rest inner : List Char} {c : Char} (h : NoneOpen (c :: before))
    (hinside : inside? (c :: (before ++ '[' :: rest)) = some inner) :
    ∃ q, before = '[' :: (inner ++ ']' :: ']' :: q) := by
  obtain ⟨-, hclosed, after, hcs⟩ := (inside?_eq_some_iff _ _).mp hinside
  obtain ⟨rfl, htail⟩ := List.cons.inj hcs
  rcases before with - | ⟨d, b⟩
  · exact absurd (h [] List.suffix_rfl) List.not_mem_nil
  · obtain ⟨rfl, hb⟩ := List.cons.inj htail
    have hmem : ']' ∈ b := by
      simpa using h (b ++ ['[']) List.suffix_rfl
    rcases List.append_eq_append_iff.mp hb with ⟨e, he, -⟩ | ⟨e, he, hafter⟩
    · exact absurd (he ▸ List.mem_append_left e hmem) hclosed
    · -- the rest begins with an opening bracket, so both closing ones stand before it
      rcases e with - | ⟨x, - | ⟨y, q⟩⟩
      · cases hafter
      · cases hafter
      · obtain ⟨rfl, hafter'⟩ := List.cons.inj hafter
        obtain ⟨rfl, -⟩ := List.cons.inj hafter'
        exact ⟨q, congrArg _ he⟩

theorem insidesFrom_of_none {c : Char} {r : List Char} (h : inside? (c :: r) = none) :
    insidesFrom 0 (c :: r) = insidesFrom 0 r := by
  rw [insidesFrom, h]

theorem insidesFrom_of_some {c : Char} {r inner : List Char} (h : inside? (c :: r) = some inner) :
    insidesFrom 0 (c :: r) = inner :: insidesFrom (inner.length + 3) r := by
  rw [insidesFrom, h]

/-- A text in brackets before which none is left open is found. `skip` characters before it belong
to the link found last, so that it is past these that none must be open. -/
theorem mem_insidesFrom {t : List Char} (hne : t ≠ []) (hclosed : ']' ∉ t) (after : List Char)
    (skip : Nat) (before : List Char) (hskip : skip ≤ before.length)
    (h : NoneOpen (before.drop skip)) :
    t ∈ insidesFrom skip (before ++ '[' :: '[' :: (t ++ ']' :: ']' :: after)) := by
  have hfound : inside? ('[' :: '[' :: (t ++ ']' :: ']' :: after)) = some t :=
    (inside?_eq_some_iff _ _).mpr ⟨hne, hclosed, after, rfl⟩
  induction before generalizing skip with
  | nil =>
    obtain rfl : skip = 0 := Nat.le_zero.mp hskip
    rw [List.nil_append, insidesFrom_of_some hfound]
    exact List.mem_cons_self
  | cons c before ih =>
    rw [List.cons_append]
    cases skip with
    | succ k => exact ih k (Nat.le_of_succ_le_succ hskip) h
    | zero =>
      cases hinside : inside? (c :: (before ++ '[' :: '[' :: (t ++ ']' :: ']' :: after))) with
      | none =>
        rw [insidesFrom_of_none hinside]
        exact ih 0 (Nat.zero_le _) (h.of_append (p := [c]))
      | some inner =>
        obtain ⟨q, rfl⟩ := before_of_inside? h hinside
        have hdrop : ('[' :: (inner ++ ']' :: ']' :: q)).drop (inner.length + 3) = q := by
          rw [List.drop_succ_cons, List.drop_append]
          simp
        have hq : NoneOpen q := by
          refine NoneOpen.of_append (p := c :: '[' :: (inner ++ [']', ']'])) ?_
          simpa using h
        rw [insidesFrom_of_some hinside]
        refine List.mem_cons_of_mem _ (ih _ ?_ ?_)
        · simp
        · rw [hdrop]
          exact hq

theorem ofInside?_of_no_bar {t : List Char} (hbar : '|' ∉ t) (hblank : Text.trim t ≠ []) :
    ofInside? t = some ⟨String.ofList (Text.trim t), String.ofList (Text.trim t)⟩ := by
  simp [ofInside?, Text.splitOnce_eq_none hbar, hblank]

/-- A title in brackets is found as a link to it, unless one before takes it in. -/
theorem exists_link_of_title {title : String} (hclosed : ']' ∉ title.toList)
    (hbar : '|' ∉ title.toList) (hblank : Text.trim title.toList ≠ []) {before : List Char}
    (h : NoneOpen before) (after : List Char) :
    ∃ l ∈ extract (before ++ '[' :: '[' :: (title.toList ++ ']' :: ']' :: after)),
      l.key = Record.keyOfTitle title := by
  have hne : title.toList ≠ [] := fun he => hblank (by rw [he]; rfl)
  have hinside := mem_insidesFrom hne hclosed after 0 before (Nat.zero_le _) h
  refine ⟨_, List.mem_filterMap.mpr ⟨_, hinside, ofInside?_of_no_bar hbar hblank⟩, ?_⟩
  rw [key, Text.lowercase, String.toList_ofList, Record.keyOfTitle]

end Link

end NoteIndex
