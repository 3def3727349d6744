import NoteIndex.Collection.Table

/-!
# Tables of things that know their names

A table in which every value stands under the name that `key` reads off it, so that the values alone
determine the table. `add` and `erase` are the only ways to change one.
-/

namespace NoteIndex

universe u v w

structure Keyed {α : Type u} (key : α → String) extends Table α where
  keyed : ∀ e ∈ entries, e.1 = key e.2

namespace Keyed

variable {α : Type u} {β : Type v} {key : α → String} {key' : β → String}

def empty : Keyed key := ⟨∅, fun _ h => absurd h List.not_mem_nil⟩

instance : EmptyCollection (Keyed key) := ⟨empty⟩
instance : Inhabited (Keyed key) := ⟨empty⟩

/-- Adds a value, in the place of the one of its name if there is one. -/
def add (t : Keyed key) (v : α) : Keyed key where
  toTable := t.toTable.insert (key v) v
  keyed e he := by
    rcases Table.mem_put he with rfl | he
    · rfl
    · exact t.keyed e he

def erase (t : Keyed key) (k : String) : Keyed key where
  toTable := t.toTable.erase k
  keyed e he := t.keyed e (Table.mem_of_mem_drop he)

/-- Adds the values one after another. -/
def ofValues (vs : List α) : Keyed key := vs.foldl add ∅

/-- Changes every value, but not its name. -/
def map (t : Keyed key) (f : α → β) (h : ∀ a, key' (f a) = key a) : Keyed key' where
  entries := t.entries.map fun e => (e.1, f e.2)
  nodup := by
    rw [List.map_map]
    exact t.nodup
  keyed e he := by
    obtain ⟨d, hd, rfl⟩ := List.mem_map.mp he
    rw [h]
    exact t.keyed d hd

@[ext] theorem ext {s t : Keyed key} (h : s.entries = t.entries) : s = t := by
  cases s; cases t; congr 1; exact Table.ext h

@[simp] theorem find?_empty (k : String) : (∅ : Keyed key).find? k = none := rfl

@[simp] theorem find?_add (t : Keyed key) (v : α) (k : String) :
    (t.add v).find? k = if k = key v then some v else t.find? k := Table.find?_insert ..

@[simp] theorem find?_erase (t : Keyed key) (k j : String) :
    (t.erase k).find? j = if j = k then none else t.find? j := Table.find?_erase ..

theorem entries_eq (t : Keyed key) : t.entries = t.values.map fun v => (key v, v) := by
  rw [Table.values, List.map_map]
  refine (List.map_id _).symm.trans (List.map_congr_left fun e he => ?_)
  exact Prod.ext (t.keyed e he) rfl

/-- The values in their order are all there is to a table of this kind. -/
theorem ext_values {s t : Keyed key} (h : s.values = t.values) : s = t := by
  apply ext
  rw [s.entries_eq, t.entries_eq, h]

theorem keys_eq (t : Keyed key) : t.keys = t.values.map key := by
  rw [Table.keys, t.entries_eq, List.map_map]
  rfl

theorem nodup_values (t : Keyed key) : (t.values.map key).Nodup := by
  rw [← t.keys_eq]
  exact t.nodup

theorem find?_eq_some_iff (t : Keyed key) (k : String) (v : α) :
    t.find? k = some v ↔ v ∈ t.values ∧ key v = k := by
  obtain ⟨⟨es, hn⟩, hk⟩ := t
  simp only [Table.find?, Table.values]
  induction es with
  | nil => simp [Table.lookup]
  | cons e r ih =>
    obtain ⟨k', v'⟩ := e
    obtain ⟨hnot, hr⟩ := List.nodup_cons.mp hn
    have hv' : k' = key v' := hk (k', v') (List.mem_cons_self ..)
    have ih := ih hr fun e he => hk e (List.mem_cons_of_mem _ he)
    simp only [Table.lookup, List.map_cons, List.mem_cons]
    split
    · rename_i heq
      subst heq
      constructor
      · intro h
        cases h
        exact ⟨.inl rfl, hv'.symm⟩
      · rintro ⟨rfl | hm, hkey⟩
        · rfl
        · obtain ⟨e, he, rfl⟩ := List.mem_map.mp hm
          have hmem : e.1 ∈ r.map Prod.fst := List.mem_map_of_mem he
          rw [hk e (List.mem_cons_of_mem _ he), hkey] at hmem
          exact absurd hmem hnot
    · rename_i hne
      rw [ih]
      constructor
      · rintro ⟨hm, hkey⟩
        exact ⟨.inr hm, hkey⟩
      · rintro ⟨rfl | hm, hkey⟩
        · exact absurd (hv'.trans hkey) hne
        · exact ⟨hm, hkey⟩

theorem key_of_find? {t : Keyed key} {k : String} {v : α} (h : t.find? k = some v) : key v = k :=
  ((t.find?_eq_some_iff k v).mp h).2

theorem find?_key {t : Keyed key} {v : α} (h : v ∈ t.values) : t.find? (key v) = some v :=
  (t.find?_eq_some_iff _ _).mpr ⟨h, rfl⟩

theorem find?_key_iff (t : Keyed key) (v : α) : t.find? (key v) = some v ↔ v ∈ t.values :=
  (t.find?_eq_some_iff _ _).trans (and_iff_left rfl)

/-- Looking up names that are all there gives values of just these names. -/
theorem keys_filterMap_find? (t : Keyed key) {ks : List String}
    (h : ∀ k ∈ ks, ∃ v, t.find? k = some v) : (ks.filterMap t.find?).map key = ks := by
  induction ks with
  | nil => rfl
  | cons k r ih =>
    obtain ⟨⟨v, hv⟩, hr⟩ := List.forall_mem_cons.mp h
    rw [List.filterMap_cons_some hv, List.map_cons, key_of_find? hv, ih hr]

theorem erase_of_none {t : Keyed key} {k : String} (h : t.find? k = none) : t.erase k = t :=
  ext (Table.drop_of_not_mem ((Table.lookup_eq_none_iff k t.entries).mp h))

/-- The values of other names, in their order. -/
def others (t : Keyed key) (k : String) : List α := t.values.filter (key · ≠ k)

theorem others_eq (t : Keyed key) (k : String) :
    t.others k = (t.entries.filter (·.1 ≠ k)).map Prod.snd := by
  rw [others, Table.values, List.filter_map]
  refine congrArg _ (List.filter_congr fun e he => ?_)
  rw [t.keyed e he]
  rfl

theorem others_add (t : Keyed key) (v : α) : (t.add v).others (key v) = t.others (key v) := by
  rw [others_eq, others_eq]
  exact congrArg _ (Table.filter_put (key v) v t.entries)

theorem others_erase (t : Keyed key) (k : String) : (t.erase k).others k = t.others k := by
  rw [others_eq, others_eq]
  exact congrArg _ (Table.filter_drop k t.entries)

/-- There is a value of that name, and it has the property. -/
def Has (t : Keyed key) (p : α → Prop) (k : String) : Prop := ∃ v, t.find? k = some v ∧ p v

section Has

variable {t : Keyed key} {p : α → Prop} {k : String}

theorem has_iff {v : α} (h : t.find? k = some v) : t.Has p k ↔ p v := by
  constructor
  · rintro ⟨w, hw, hp⟩
    rw [h] at hw
    cases hw
    exact hp
  · exact fun hp => ⟨v, h, hp⟩

theorem not_has (h : t.find? k = none) : ¬ t.Has p k := by
  rintro ⟨w, hw, -⟩
  rw [h] at hw
  cases hw

/-- Two tables may differ in whatever the property does not look at. -/
theorem has_congr {γ : Type w} (f : α → γ) {s : Keyed key}
    (h : (s.find? k).map f = (t.find? k).map f) (p : γ → Prop) :
    s.Has (fun v => p (f v)) k ↔ t.Has (fun v => p (f v)) k := by
  cases hs : s.find? k with
  | none =>
    rw [hs, Option.map_none, eq_comm, Option.map_eq_none_iff] at h
    exact iff_of_false (not_has hs) (not_has h)
  | some v =>
    rw [hs, Option.map_some, eq_comm, Option.map_eq_some_iff] at h
    obtain ⟨w, hw, hfw⟩ := h
    rw [has_iff hs, has_iff hw, hfw]

theorem has_iff_exists : t.Has p k ↔ ∃ v ∈ t.values, p v ∧ k = key v := by
  constructor
  · rintro ⟨v, hv, hp⟩
    obtain ⟨hm, hk⟩ := (t.find?_eq_some_iff k v).mp hv
    exact ⟨v, hm, hp, hk.symm⟩
  · rintro ⟨v, hm, hp, rfl⟩
    exact ⟨v, find?_key hm, hp⟩

theorem Has.contains (h : t.Has p k) : t.contains k = true := by
  obtain ⟨v, hv, -⟩ := h
  rw [Table.contains, hv, Option.isSome_some]

theorem not_has_empty : ¬ (∅ : Keyed key).Has p k := not_has rfl

theorem has_add (v : α) : (t.add v).Has p k ↔ (p v ∧ k = key v) ∨ (t.Has p k ∧ k ≠ key v) := by
  by_cases hk : k = key v
  · have hv : (t.add v).find? k = some v := by simp [hk]
    rw [has_iff hv]
    simp [hk]
  · simp [Has, hk]

theorem has_erase (j : String) : (t.erase j).Has p k ↔ t.Has p k ∧ k ≠ j := by
  by_cases hk : k = j
  · have hnone : (t.erase j).find? k = none := by simp [hk]
    exact iff_of_false (not_has hnone) fun h => h.2 hk
  · simp [Has, hk]

/-- A value that is as good as the one before it leaves everything as it was. -/
theorem has_add_of_iff {v w : α} (h : t.find? (key v) = some w) (hp : p v ↔ p w) :
    (t.add v).Has p k ↔ t.Has p k := by
  by_cases hk : k = key v
  · subst hk
    have hv : (t.add v).find? (key v) = some v := by simp
    rw [has_iff hv, has_iff h, hp]
  · simp [Has, hk]

theorem has_and_ne_of_none {j : String} (h : t.find? j = none) :
    t.Has p k ↔ t.Has p k ∧ k ≠ j := by
  refine ⟨fun hk => ⟨hk, ?_⟩, And.left⟩
  rintro rfl
  exact not_has h hk

theorem has_and_not_iff {j : String} {v : α} (h : t.find? j = some v) :
    t.Has p k ∧ ¬ (p v ∧ k = j) ↔ t.Has p k ∧ k ≠ j := by
  refine and_congr_right fun hk => not_congr ⟨And.right, ?_⟩
  rintro rfl
  exact ⟨(has_iff h).mp hk, rfl⟩

end Has

theorem values_foldl_add (vs : List α) (t : Keyed key)
    (h : ((t.values ++ vs).map key).Nodup) : (vs.foldl add t).values = t.values ++ vs := by
  induction vs generalizing t with
  | nil => exact (List.append_nil _).symm
  | cons v r ih =>
    have hv : key v ∉ t.entries.map Prod.fst := by
      change key v ∉ t.keys
      rw [t.keys_eq]
      rw [List.map_append, List.map_cons] at h
      intro hm
      exact (List.nodup_append.mp h).2.2 _ hm _ (List.mem_cons_self ..) rfl
    have hadd : (t.add v).values = t.values ++ [v] := by
      change (Table.put (key v) v t.entries).map Prod.snd = _
      rw [Table.put_of_not_mem hv, List.map_append]
      rfl
    rw [List.foldl_cons, ih (t.add v) (by rw [hadd, List.append_assoc]; exact h), hadd,
      List.append_assoc]
    rfl

/-- Values of different names come to stand in the order in which they are added. -/
theorem values_ofValues {vs : List α} (h : (vs.map key).Nodup) :
    (ofValues vs : Keyed key).values = vs :=
  values_foldl_add vs ∅ h

theorem ofValues_values (t : Keyed key) : ofValues t.values = t :=
  ext_values (values_ofValues t.nodup_values)

section Map

variable (f : α → β) (h : ∀ a, key' (f a) = key a)
include h

theorem values_map (t : Keyed key) : (t.map f h).values = t.values.map f := by
  change (t.entries.map _).map _ = (t.entries.map _).map f
  rw [List.map_map, List.map_map]
  rfl

theorem map_add (t : Keyed key) (v : α) : (t.add v).map f h = (t.map f h).add (f v) := by
  apply ext
  change (Table.put (key v) v t.entries).map _ = Table.put (key' (f v)) (f v) (t.entries.map _)
  rw [h]
  induction t.entries with
  | nil => rfl
  | cons e r ih =>
    obtain ⟨k', v'⟩ := e
    by_cases hk : k' = key v <;> simp [Table.put, hk, ih]

theorem map_erase (t : Keyed key) (k : String) : (t.erase k).map f h = (t.map f h).erase k := by
  apply ext
  change (Table.drop k t.entries).map _ = Table.drop k (t.entries.map _)
  induction t.entries with
  | nil => rfl
  | cons e r ih =>
    obtain ⟨k', v'⟩ := e
    by_cases hk : k' = k <;> simp [Table.drop, hk, ih]

end Map

end Keyed

end NoteIndex
