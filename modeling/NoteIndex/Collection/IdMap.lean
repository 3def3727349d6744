import NoteIndex.Collection.SortedMap

/-!
# Maps to sets of identifiers

A map lists identifiers under keys, so it stands for a relation between the two (`Lists`). `addId`
and `removeId` keep it free of empty sets: the entry of a key is dropped together with its last
identifier. A map without empty sets is determined by its relation.
-/

namespace NoteIndex

/-- From a key to the identifiers listed under it. -/
abbrev IdMap := SortedMap StringSet

namespace IdMap

/-- The identifiers listed under a key. -/
def ids (m : IdMap) (k : String) : StringSet := (m.find? k).getD ∅

def addId (m : IdMap) (k id : String) : IdMap :=
  m.alter k fun s => some ((s.getD ∅).insert id)

/-- Takes an identifier out from under a key, and the key with its last identifier. -/
def removeId (m : IdMap) (k id : String) : IdMap :=
  m.alter k fun
    | none => none
    | some s => if (s.erase id).isEmpty then none else some (s.erase id)

/-- Adds an identifier under each of several keys. -/
def addUnder (m : IdMap) (ks : List String) (id : String) : IdMap :=
  ks.foldl (fun m k => m.addId k id) m

/-- Takes an identifier out from under each of several keys. -/
def removeUnder (m : IdMap) (ks : List String) (id : String) : IdMap :=
  ks.foldl (fun m k => m.removeId k id) m

@[simp] theorem ids_empty (k : String) : ids (∅ : IdMap) k = ∅ := rfl

@[simp] theorem mem_ids_addId (m : IdMap) (k id j x : String) :
    x ∈ (m.addId k id).ids j ↔ (j = k ∧ x = id) ∨ x ∈ m.ids j := by
  by_cases h : j = k <;> simp [ids, addId, h]

@[simp] theorem mem_ids_removeId (m : IdMap) (k id j x : String) :
    x ∈ (m.removeId k id).ids j ↔ x ∈ m.ids j ∧ ¬ (j = k ∧ x = id) := by
  by_cases h : j = k
  · subst h
    cases hf : m.find? j with
    | none => simp [ids, removeId, hf]
    | some s =>
      by_cases he : (s.erase id).isEmpty
      · have hn : ∀ y, y ∉ s.erase id := by
          intro y
          rw [(StringSet.isEmpty_iff _).mp he]
          simp
        have := hn x
        simp only [StringSet.mem_erase] at this
        simp only [ids, removeId, SortedMap.find?_alter, hf, he, if_true, Option.getD_none,
          Option.getD_some, true_and]
        constructor
        · intro hx
          exact absurd hx (StringSet.not_mem_empty x)
        · intro hx
          exact absurd hx this
      · simp [ids, removeId, hf, he]
  · simp [ids, removeId, h]

theorem mem_ids_iff (m : IdMap) (k id : String) :
    id ∈ m.ids k ↔ ∃ s, m.find? k = some s ∧ id ∈ s := by
  rw [ids]
  cases m.find? k <;> simp

/-- No key is listed with an empty set. -/
def NoEmptySet (m : IdMap) : Prop := ∀ k s, m.find? k = some s → s ≠ ∅

theorem noEmptySet_empty : NoEmptySet ∅ := by simp [NoEmptySet]

theorem NoEmptySet.addId {m : IdMap} (h : NoEmptySet m) (k id : String) :
    NoEmptySet (m.addId k id) := by
  intro j s hs he
  by_cases hj : j = k
  · subst hj
    simp only [IdMap.addId, SortedMap.find?_alter, if_true, Option.some.injEq] at hs
    have : id ∈ s := by
      rw [← hs]
      simp
    rw [he] at this
    exact StringSet.not_mem_empty id this
  · simp only [IdMap.addId, SortedMap.find?_alter, hj, if_false] at hs
    exact h j s hs he

theorem NoEmptySet.removeId {m : IdMap} (h : NoEmptySet m) (k id : String) :
    NoEmptySet (m.removeId k id) := by
  intro j s hs he
  by_cases hj : j = k
  · subst hj
    simp only [IdMap.removeId, SortedMap.find?_alter, if_true] at hs
    split at hs
    · exact absurd hs (by simp)
    · split at hs
      · exact absurd hs (by simp)
      · rename_i hne
        simp only [Option.some.injEq] at hs
        subst hs
        exact hne ((StringSet.isEmpty_iff _).mpr he)
  · simp only [IdMap.removeId, SortedMap.find?_alter, hj, if_false] at hs
    exact h j s hs he

theorem NoEmptySet.erase {m : IdMap} (h : NoEmptySet m) (k : String) :
    NoEmptySet (SortedMap.erase m k) := by
  intro j s hs
  by_cases hj : j = k
  · simp [hj] at hs
  · exact h j s (by simpa [hj] using hs)

/-- Without empty sets, a map is determined by what it lists under each key. -/
theorem ext_ids {m n : IdMap} (hm : NoEmptySet m) (hn : NoEmptySet n)
    (h : ∀ k x, x ∈ m.ids k ↔ x ∈ n.ids k) : m = n := by
  ext k : 1
  have hk : m.ids k = n.ids k := StringSet.ext (h k)
  cases em : m.find? k with
  | none =>
    cases en : n.find? k with
    | none => rfl
    | some t =>
      simp only [ids, em, en, Option.getD_none, Option.getD_some] at hk
      exact absurd hk.symm (hn k t en)
  | some s =>
    cases en : n.find? k with
    | none =>
      simp only [ids, em, en, Option.getD_none, Option.getD_some] at hk
      exact absurd hk (hm k s em)
    | some t =>
      simp only [ids, em, en, Option.getD_some] at hk
      rw [hk]

/-- The map lists under each key just what stands in `R` to it, and no empty set. -/
structure Lists (m : IdMap) (R : String → String → Prop) : Prop where
  noEmptySet : m.NoEmptySet
  mem_iff : ∀ k id, id ∈ m.ids k ↔ R k id

theorem lists_empty : Lists ∅ fun _ _ => False := ⟨noEmptySet_empty, fun k id => by simp⟩

namespace Lists

variable {m n : IdMap} {R S : String → String → Prop}

theorem congr (h : m.Lists R) (hRS : ∀ k id, R k id ↔ S k id) : m.Lists S :=
  ⟨h.noEmptySet, fun k id => (h.mem_iff k id).trans (hRS k id)⟩

theorem mem_keys_iff (h : m.Lists R) (k : String) : k ∈ SortedMap.keys m ↔ ∃ id, R k id := by
  simp only [SortedMap.keys, List.mem_map, Prod.exists, SortedMap.mem_entries_iff,
    exists_and_right, exists_eq_right, ← h.mem_iff, mem_ids_iff]
  constructor
  · rintro ⟨s, hs⟩
    obtain ⟨id, hid⟩ := StringSet.exists_mem (h.noEmptySet k s hs)
    exact ⟨id, s, hs, hid⟩
  · rintro ⟨id, s, hs, -⟩
    exact ⟨s, hs⟩

/-- There is one map for each relation. -/
theorem unique (hm : m.Lists R) (hn : n.Lists R) : m = n :=
  ext_ids hm.noEmptySet hn.noEmptySet fun k id => (hm.mem_iff k id).trans (hn.mem_iff k id).symm

theorem addId (h : m.Lists R) (k id : String) :
    (m.addId k id).Lists fun j x => (j = k ∧ x = id) ∨ R j x where
  noEmptySet := h.noEmptySet.addId k id
  mem_iff j x := by rw [mem_ids_addId, h.mem_iff]

theorem removeId (h : m.Lists R) (k id : String) :
    (m.removeId k id).Lists fun j x => R j x ∧ ¬ (j = k ∧ x = id) where
  noEmptySet := h.noEmptySet.removeId k id
  mem_iff j x := by rw [mem_ids_removeId, h.mem_iff]

theorem erase (h : m.Lists R) (k : String) :
    Lists (SortedMap.erase m k) fun j x => R j x ∧ j ≠ k where
  noEmptySet := h.noEmptySet.erase k
  mem_iff j x := by
    by_cases hj : j = k
    · simp [ids, hj]
    · have hx : x ∈ m.ids j ↔ R j x := h.mem_iff j x
      simpa [ids, hj] using hx

theorem addUnder (h : m.Lists R) (ks : List String) (id : String) :
    (m.addUnder ks id).Lists fun j x => (j ∈ ks ∧ x = id) ∨ R j x := by
  induction ks generalizing m R with
  | nil => exact h.congr fun j x => by simp
  | cons k ks ih =>
    refine (ih (h.addId k id)).congr fun j x => ?_
    rw [List.mem_cons, or_and_right, or_left_comm, or_assoc]

theorem removeUnder (h : m.Lists R) (ks : List String) (id : String) :
    (m.removeUnder ks id).Lists fun j x => R j x ∧ ¬ (j ∈ ks ∧ x = id) := by
  induction ks generalizing m R with
  | nil => exact h.congr fun j x => by simp
  | cons k ks ih =>
    refine (ih (h.removeId k id)).congr fun j x => ?_
    rw [List.mem_cons, or_and_right, not_or, and_assoc]

/-- A map put together entry by entry lists what any of the entries gives. -/
theorem foldl_addUnder {α : Type} (keys : α → List String) (name : α → String) (as : List α)
    (h : m.Lists R) :
    (as.foldl (fun m a => m.addUnder (keys a) (name a)) m).Lists
      fun k x => (∃ a ∈ as, k ∈ keys a ∧ x = name a) ∨ R k x := by
  induction as generalizing m R with
  | nil => exact h.congr fun k x => by simp
  | cons a as ih =>
    refine (ih (h.addUnder (keys a) (name a))).congr fun k x => ?_
    simp only [List.mem_cons, exists_eq_or_imp]
    rw [or_left_comm, or_assoc]

end Lists

end IdMap

end NoteIndex
