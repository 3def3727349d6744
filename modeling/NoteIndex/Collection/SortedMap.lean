import NoteIndex.Collection.StringSet

/-!
# Maps in ascending key order

A map is the list of its entries in strictly ascending key order, so two maps that answer every
look-up alike are equal. Every write is an `alter`: it rewrites the entry of one key, present or
not, and `find?_alter` says what that does to look-ups.
-/

namespace NoteIndex

universe u

structure SortedMap (α : Type u) where
  entries : List (String × α)
  ascending : entries.Pairwise (fun a b => a.1 < b.1)

namespace SortedMap

variable {α : Type u} {β : Type u}

def lookup (k : String) : List (String × α) → Option α
  | [] => none
  | (k', v) :: r => if k' = k then some v else lookup k r

/-- Puts an entry before the others, or nothing. -/
def consSome (k : String) : Option α → List (String × α) → List (String × α)
  | some v, r => (k, v) :: r
  | none, r => r

/-- Rewrites the entry of `k` by `f`, which is given `none` where there is no such entry. -/
def alterEntries (k : String) (f : Option α → Option α) :
    List (String × α) → List (String × α)
  | [] => consSome k (f none) []
  | (k', v) :: r =>
    if k < k' then consSome k (f none) ((k', v) :: r)
    else if k = k' then consSome k (f (some v)) r
    else (k', v) :: alterEntries k f r

theorem mem_consSome {k : String} {o : Option α} {r : List (String × α)} {e : String × α}
    (h : e ∈ consSome k o r) : e.1 = k ∨ e ∈ r := by
  cases o with
  | none => exact .inr h
  | some v =>
    rcases List.mem_cons.mp h with rfl | h
    · exact .inl rfl
    · exact .inr h

theorem mem_alterEntries {k : String} {f : Option α → Option α} {es : List (String × α)}
    {e : String × α} (h : e ∈ alterEntries k f es) : e.1 = k ∨ e ∈ es := by
  induction es with
  | nil => simpa using mem_consSome h
  | cons d r ih =>
    obtain ⟨k', v⟩ := d
    simp only [alterEntries] at h
    split at h
    · exact mem_consSome h
    · split at h
      · rcases mem_consSome h with hk | hr
        · exact .inl hk
        · exact .inr (List.mem_cons_of_mem _ hr)
      · rcases List.mem_cons.mp h with rfl | hr
        · exact .inr (List.mem_cons_self ..)
        · rcases ih hr with hk | hr
          · exact .inl hk
          · exact .inr (List.mem_cons_of_mem _ hr)

theorem ascending_consSome {k : String} {o : Option α} {r : List (String × α)}
    (hr : r.Pairwise (fun a b => a.1 < b.1)) (hk : ∀ e ∈ r, k < e.1) :
    (consSome k o r).Pairwise (fun a b => a.1 < b.1) := by
  cases o with
  | none => exact hr
  | some v => exact List.pairwise_cons.mpr ⟨hk, hr⟩

theorem ascending_alterEntries (k : String) (f : Option α → Option α) {es : List (String × α)}
    (h : es.Pairwise (fun a b => a.1 < b.1)) :
    (alterEntries k f es).Pairwise (fun a b => a.1 < b.1) := by
  induction es with
  | nil => exact ascending_consSome .nil (by simp)
  | cons d r ih =>
    obtain ⟨k', v⟩ := d
    obtain ⟨hd, hr⟩ := List.pairwise_cons.mp h
    simp only [alterEntries]
    split
    · rename_i hlt
      refine ascending_consSome h fun e he => ?_
      rcases List.mem_cons.mp he with rfl | he
      · exact hlt
      · exact String.lt_trans hlt (hd e he)
    · split
      · rename_i hk
        subst hk
        exact ascending_consSome hr hd
      · rename_i hlt hne
        refine List.pairwise_cons.mpr ⟨fun e he => ?_, ih hr⟩
        rcases mem_alterEntries he with hk | he
        · rw [hk]
          rcases Std.lt_trichotomy k' k with h1 | h1 | h1
          · exact h1
          · exact absurd h1.symm hne
          · exact absurd h1 hlt
        · exact hd e he

theorem lookup_eq_none {k : String} {es : List (String × α)} (h : ∀ e ∈ es, e.1 ≠ k) :
    lookup k es = none := by
  induction es with
  | nil => rfl
  | cons d r ih =>
    obtain ⟨k', v⟩ := d
    rw [lookup, if_neg (h (k', v) (List.mem_cons_self ..))]
    exact ih fun e he => h e (List.mem_cons_of_mem _ he)

theorem lookup_consSome (k j : String) (o : Option α) (r : List (String × α))
    (h : ∀ e ∈ r, e.1 ≠ k) : lookup j (consSome k o r) = if j = k then o else lookup j r := by
  cases o with
  | none =>
    by_cases hj : j = k
    · subst hj
      simpa [consSome] using lookup_eq_none h
    · simp [consSome, hj]
  | some v =>
    by_cases hj : j = k
    · simp [consSome, lookup, hj]
    · simp [consSome, lookup, hj, Ne.symm hj]

theorem lookup_alterEntries (k j : String) (f : Option α → Option α) {es : List (String × α)}
    (h : es.Pairwise (fun a b => a.1 < b.1)) :
    lookup j (alterEntries k f es) = if j = k then f (lookup k es) else lookup j es := by
  induction es with
  | nil => exact lookup_consSome k j _ [] (by simp)
  | cons d r ih =>
    obtain ⟨k', v⟩ := d
    obtain ⟨hd, hr⟩ := List.pairwise_cons.mp h
    simp only [alterEntries]
    split
    · rename_i hlt
      have hne : ∀ e ∈ (k', v) :: r, e.1 ≠ k := by
        intro e he heq
        rcases List.mem_cons.mp he with rfl | he
        · rw [← heq] at hlt
          exact String.lt_irrefl _ hlt
        · have hlt' := hd e he
          rw [heq] at hlt'
          exact String.lt_irrefl k (String.lt_trans hlt hlt')
      rw [lookup_consSome k j _ _ hne, lookup_eq_none hne]
    · split
      · rename_i hk
        subst hk
        have hne : ∀ e ∈ r, e.1 ≠ k := fun e he heq => String.lt_irrefl k (by
          have := hd e he
          rwa [heq] at this)
        rw [lookup_consSome k j _ _ hne]
        by_cases hj : j = k
        · simp [lookup, hj]
        · simp [lookup, hj, Ne.symm hj]
      · rename_i hlt hne
        by_cases hj : k' = j
        · subst hj
          simp [lookup, Ne.symm hne]
        · simp [lookup, hj, Ne.symm hne, ih hr]

def empty : SortedMap α := ⟨[], .nil⟩

instance : EmptyCollection (SortedMap α) := ⟨empty⟩
instance : Inhabited (SortedMap α) := ⟨empty⟩

def keys (m : SortedMap α) : List String := m.entries.map Prod.fst

def find? (m : SortedMap α) (k : String) : Option α := lookup k m.entries

def alter (m : SortedMap α) (k : String) (f : Option α → Option α) : SortedMap α :=
  ⟨alterEntries k f m.entries, ascending_alterEntries k f m.ascending⟩

def insert (m : SortedMap α) (k : String) (v : α) : SortedMap α := m.alter k fun _ => some v

def erase (m : SortedMap α) (k : String) : SortedMap α := m.alter k fun _ => none

/-- Inserts the pairs one after another, so a later pair overwrites an earlier one of its key. -/
def ofList (es : List (String × α)) : SortedMap α :=
  es.foldl (fun m e => m.insert e.1 e.2) empty

@[simp] theorem find?_empty (k : String) : (∅ : SortedMap α).find? k = none := rfl

@[simp] theorem find?_alter (m : SortedMap α) (k j : String) (f : Option α → Option α) :
    (m.alter k f).find? j = if j = k then f (m.find? k) else m.find? j :=
  lookup_alterEntries k j f m.ascending

@[simp] theorem find?_insert (m : SortedMap α) (k j : String) (v : α) :
    (m.insert k v).find? j = if j = k then some v else m.find? j := find?_alter ..

@[simp] theorem find?_erase (m : SortedMap α) (k j : String) :
    (m.erase k).find? j = if j = k then none else m.find? j := find?_alter ..

theorem mem_entries_iff (m : SortedMap α) (k : String) (v : α) :
    (k, v) ∈ m.entries ↔ m.find? k = some v := by
  obtain ⟨es, h⟩ := m
  simp only [find?]
  induction es with
  | nil => simp [lookup]
  | cons d r ih =>
    obtain ⟨k', v'⟩ := d
    obtain ⟨hd, hr⟩ := List.pairwise_cons.mp h
    by_cases hk : k' = k
    · subst hk
      have hnot : (k', v) ∉ r := fun hm => String.lt_irrefl k' (hd _ hm)
      simp [lookup, hnot, eq_comm]
    · simp [lookup, hk, Ne.symm hk, ih hr]

/-- Entries in ascending order are determined by the look-ups. -/
@[ext] theorem ext {m n : SortedMap α} (h : ∀ k, m.find? k = n.find? k) : m = n := by
  have hmem : ∀ e, e ∈ m.entries ↔ e ∈ n.entries := fun (k, v) => by
    rw [mem_entries_iff, mem_entries_iff, h]
  obtain ⟨es, he⟩ := m
  obtain ⟨fs, hf⟩ := n
  have : es = fs := by
    clear h
    simp only at hmem
    induction es generalizing fs with
    | nil =>
      cases fs with
      | nil => rfl
      | cons f r => exact absurd ((hmem f).mpr (List.mem_cons_self ..)) List.not_mem_nil
    | cons e r ih =>
      cases fs with
      | nil => exact absurd ((hmem e).mp (List.mem_cons_self ..)) List.not_mem_nil
      | cons f q =>
        obtain ⟨her, hr⟩ := List.pairwise_cons.mp he
        obtain ⟨hfq, hq⟩ := List.pairwise_cons.mp hf
        have hef : e = f := by
          rcases List.mem_cons.mp ((hmem e).mp (List.mem_cons_self ..)) with heq | hm
          · exact heq
          · rcases List.mem_cons.mp ((hmem f).mpr (List.mem_cons_self ..)) with heq | hm'
            · exact heq.symm
            · exact absurd (String.lt_trans (her f hm') (hfq e hm)) (String.lt_irrefl e.1)
        subst hef
        refine congrArg (e :: ·) (ih hr q hq fun z => ⟨fun hz => ?_, fun hz => ?_⟩)
        · rcases List.mem_cons.mp ((hmem z).mp (List.mem_cons_of_mem _ hz)) with heq | hm
          · subst heq
            exact absurd (her z hz) (String.lt_irrefl z.1)
          · exact hm
        · rcases List.mem_cons.mp ((hmem z).mpr (List.mem_cons_of_mem _ hz)) with heq | hm
          · subst heq
            exact absurd (hfq z hz) (String.lt_irrefl z.1)
          · exact hm
  subst this
  rfl

/-- Of pairs with different keys, each is found again. -/
theorem find?_foldl_insert {es : List (String × α)} (h : es.Pairwise (fun a b => a.1 < b.1))
    (m : SortedMap α) (k : String) :
    (es.foldl (fun m e => m.insert e.1 e.2) m).find? k = (lookup k es).or (m.find? k) := by
  induction es generalizing m with
  | nil => rfl
  | cons e r ih =>
    obtain ⟨k', v⟩ := e
    obtain ⟨hk', hr⟩ := List.pairwise_cons.mp h
    rw [List.foldl_cons, ih hr, find?_insert, lookup]
    by_cases hk : k' = k
    · subst hk
      have hnone : lookup k' r = none := lookup_eq_none fun e he heq =>
        String.lt_irrefl k' (heq ▸ hk' e he)
      simp [hnone]
    · simp [hk, Ne.symm hk]

/-- Of several pairs of one key the last is found. -/
theorem find?_ofList (es : List (String × α)) (k : String) :
    (ofList es).find? k = (es.reverse.find? (·.1 == k)).map Prod.snd := by
  suffices h : ∀ m : SortedMap α, (es.foldl (fun m e => m.insert e.1 e.2) m).find? k =
      ((es.reverse.find? (·.1 == k)).map Prod.snd).or (m.find? k) from
    (h empty).trans (Option.or_none ..)
  induction es with
  | nil => exact fun m => rfl
  | cons e r ih =>
    intro m
    rw [List.foldl_cons, ih, find?_insert, List.reverse_cons, List.find?_append]
    cases hr : r.reverse.find? (·.1 == k) with
    | some d => rfl
    | none =>
      by_cases hk : k = e.1
      · simp [hk]
      · simp [hk, Ne.symm hk]

theorem ofList_entries (m : SortedMap α) : ofList m.entries = m := by
  ext k : 1
  exact (find?_foldl_insert m.ascending empty k).trans (Option.or_none ..)

theorem eq_of_entries {m n : SortedMap α} (h : m.entries = n.entries) : m = n := by
  cases m; cases n; cases h; rfl

end SortedMap

end NoteIndex
