import NoteIndex.Proofs.Index.Store

/-!
# Stores that are written to row by row

Snapshots may be saved, the store may be emptied, and single rows may be written or taken away
behind the back of both. What a store holds then is a matter of the last write that concerns each
row, and of nothing before it. The four rows are read apart from one another: a store gives back a
snapshot if each of them is the text of a map of its kind, and says which of two things is wrong if
not.
-/

namespace NoteIndex

namespace Store

/-! ## Text that stands for a map -/

/-- The text is an object, and the map has under each name the value of the last field so called. A
field is known by what is written in it. -/
def TextOf {α β : Type} (write : β → Json) (value : β → α) (text : String) (m : SortedMap α) :
    Prop :=
  ∃ fields : List (String × β),
    Json.parse? text = some (.object (fields.map fun f => (f.1, write f.2))) ∧
      ∀ k, m.find? k = (fields.reverse.find? (·.1 == k)).map fun f => value f.2

/-- The text is an object of arrays of strings, in any order and with any repetitions. -/
abbrev TextOfIds : String → IdMap → Prop := TextOf Json.strings StringSet.ofList

/-- The text is an object of strings. -/
abbrev TextOfStrings : String → SortedMap String → Prop := TextOf Json.string id

/-- What is read one by one just if it was written one by one is read as a list on these terms. -/
theorem mapM_eq_some_iff {α β γ : Type} {write : β → γ} {value : β → α} {read : γ → Option α}
    (h : ∀ c a, read c = some a ↔ ∃ b, c = write b ∧ a = value b) (cs : List γ) (as : List α) :
    cs.mapM read = some as ↔ ∃ bs : List β, cs = bs.map write ∧ as = bs.map value := by
  induction cs generalizing as with
  | nil =>
    constructor
    · rintro ⟨⟩
      exact ⟨[], rfl, rfl⟩
    · rintro ⟨bs, hbs, rfl⟩
      rw [List.map_eq_nil_iff.mp hbs.symm]
      rfl
  | cons c cs ih =>
    simp only [List.mapM_cons, Option.pure_def, Option.bind_eq_bind, Option.bind_eq_some_iff,
      Option.some.injEq]
    constructor
    · rintro ⟨a, ha, as, has, rfl⟩
      obtain ⟨b, rfl, rfl⟩ := (h c a).mp ha
      obtain ⟨bs, rfl, rfl⟩ := (ih as).mp has
      exact ⟨b :: bs, rfl, rfl⟩
    · rintro ⟨bs, hbs, rfl⟩
      cases bs with
      | nil => cases hbs
      | cons b bs =>
        obtain ⟨rfl, rfl⟩ := List.cons.inj hbs
        exact ⟨_, (h _ _).mpr ⟨b, rfl, rfl⟩, _, (ih _).mpr ⟨bs, rfl, rfl⟩, rfl⟩

theorem string?_eq_some_iff (j : Json) (s : String) :
    j.string? = some s ↔ ∃ t, j = .string t ∧ s = id t := by
  cases j <;> simp [Json.string?, eq_comm]

theorem stringSet?_eq_some_iff (j : Json) (s : StringSet) :
    stringSet? j = some s ↔ ∃ xs, j = Json.strings xs ∧ s = .ofList xs := by
  cases j with
  | array items =>
    simp only [stringSet?, Json.array?, Option.bind_eq_bind, Option.bind_some, Option.pure_def,
      Option.bind_eq_some_iff, Option.some.injEq, mapM_eq_some_iff string?_eq_some_iff,
      Json.strings, Json.array.injEq]
    constructor
    · rintro ⟨_, ⟨xs, rfl, rfl⟩, rfl⟩
      exact ⟨xs, rfl, by rw [List.map_id]⟩
    · rintro ⟨xs, rfl, rfl⟩
      exact ⟨xs, ⟨xs, rfl, (List.map_id xs).symm⟩, rfl⟩
  | _ => simp [stringSet?, Json.array?, Json.strings]

theorem mapOf?_eq_some_iff {α β : Type} {write : β → Json} {value : β → α} {read : Json → Option α}
    (h : ∀ j a, read j = some a ↔ ∃ b, j = write b ∧ a = value b) (text : String)
    (m : SortedMap α) :
    (Json.parse? text).bind (mapOf? read) = some m ↔ TextOf write value text m := by
  have hfield (f : String × Json) (e : String × α) : ((read f.2).map fun v => (f.1, v)) = some e ↔
      ∃ b : String × β, f = (b.1, write b.2) ∧ e = (b.1, value b.2) := by
    rw [Option.map_eq_some_iff]
    constructor
    · rintro ⟨a, ha, rfl⟩
      obtain ⟨b, hb, rfl⟩ := (h f.2 a).mp ha
      exact ⟨(f.1, b), Prod.ext rfl hb, rfl⟩
    · rintro ⟨b, rfl, rfl⟩
      exact ⟨value b.2, (h _ _).mpr ⟨b.2, rfl, rfl⟩, rfl⟩
  have hfind (bs : List (String × β)) (k : String) :
      (SortedMap.ofList (bs.map fun f => (f.1, value f.2))).find? k =
        (bs.reverse.find? (·.1 == k)).map fun f => value f.2 := by
    rw [SortedMap.find?_ofList, ← List.map_reverse, List.find?_map, Option.map_map]
    rfl
  constructor
  · intro hread
    obtain ⟨j, hj, hm⟩ := Option.bind_eq_some_iff.mp hread
    cases j with
    | object fields =>
      rw [mapOf?, Option.map_eq_some_iff] at hm
      obtain ⟨es, hes, rfl⟩ := hm
      obtain ⟨bs, rfl, rfl⟩ := (mapM_eq_some_iff hfield fields es).mp hes
      exact ⟨bs, hj, hfind bs⟩
    | _ => cases hm
  · rintro ⟨bs, hj, hm⟩
    have hes := (mapM_eq_some_iff hfield _ _).mpr ⟨bs, rfl, rfl⟩
    rw [hj, Option.bind_some, mapOf?, hes, Option.map_some]
    exact congrArg some (SortedMap.ext fun k => (hfind bs k).trans (hm k).symm)

theorem decodeIds?_eq_some_iff (text : String) (m : IdMap) :
    decodeIds? text = some m ↔ TextOfIds text m :=
  mapOf?_eq_some_iff stringSet?_eq_some_iff text m

theorem decodeStrings?_eq_some_iff (text : String) (m : SortedMap String) :
    decodeStrings? text = some m ↔ TextOfStrings text m :=
  mapOf?_eq_some_iff string?_eq_some_iff text m

/-! ## Loading row by row -/

theorem load_of_missing {s : Store} (h : s.InOrder) {key : String}
    (hkey : key ∈ [tagRow, linkRow, backlinkRow, fingerprintRow])
    (hnone : s.rows.find? key = none) : s.load = .ok none := by
  rw [load, if_neg (not_not_intro h.readable)]
  simp only [List.mem_cons, List.not_mem_nil, or_false] at hkey
  rcases hkey with rfl | rfl | rfl | rfl
  all_goals
    rw [hnone]
    repeat' split
    all_goals simp_all

/-- The four rows of a snapshot are there. -/
structure HasRows (s : Store) (tags links backlinks fingerprints : String) : Prop where
  tags : s.rows.find? tagRow = some tags
  links : s.rows.find? linkRow = some links
  backlinks : s.rows.find? backlinkRow = some backlinks
  fingerprints : s.rows.find? fingerprintRow = some fingerprints

section Rows

variable {s : Store} {tags links backlinks fingerprints : String}

theorem HasRows.load_eq_some_iff (hrows : s.HasRows tags links backlinks fingerprints)
    (h : s.InOrder) (x : Snapshot) :
    s.load = .ok (some x) ↔ TextOfIds tags x.tags ∧ TextOfIds links x.links ∧
      TextOfIds backlinks x.backlinks ∧ TextOfStrings fingerprints x.fingerprints := by
  obtain ⟨t, l, b, f⟩ := x
  simp only [← decodeIds?_eq_some_iff, ← decodeStrings?_eq_some_iff, load, h.readable, hrows.tags,
    hrows.links, hrows.backlinks, hrows.fingerprints, not_true_eq_false, if_false]
  split <;> simp_all

theorem HasRows.load_eq_malformed_iff (hrows : s.HasRows tags links backlinks fingerprints)
    (h : s.InOrder) :
    s.load = .error .malformed ↔ (¬ ∃ m, TextOfIds tags m) ∨ (¬ ∃ m, TextOfIds links m) ∨
      (¬ ∃ m, TextOfIds backlinks m) ∨ ¬ ∃ m, TextOfStrings fingerprints m := by
  simp only [← decodeIds?_eq_some_iff, ← decodeStrings?_eq_some_iff, load, h.readable, hrows.tags,
    hrows.links, hrows.backlinks, hrows.fingerprints, not_true_eq_false, if_false,
    not_exists, ← Option.eq_none_iff_forall_ne_some]
  split
  · simp_all
  · rename_i hne
    refine iff_of_true rfl (Classical.byContradiction fun hall => ?_)
    simp only [not_or, ← ne_eq, Option.ne_none_iff_exists'] at hall
    obtain ⟨⟨t, ht⟩, ⟨l, hl⟩, ⟨b, hb⟩, f, hf⟩ := hall
    exact hne t l b f ht hl hb hf

end Rows

/-! ## Writing -/

/-- What is done to a store. -/
inductive Write where
  | save (x : Snapshot)
  | clear
  /-- Puts a text into a row of any name, or takes the row away. -/
  | row (key : String) (text : Option String)

def write (s : Store) : Write → Store
  | .save x => s.save x
  | .clear => s.clear
  | .row key text => s.writeRow key text

def after (s : Store) (ws : List Write) : Store := ws.foldl write s

/-- The text that a snapshot is saved as in a row of its own. -/
def savedText? (x : Snapshot) (key : String) : Option String :=
  if key = tagRow then some (idMapJson x.tags).compact
  else if key = linkRow then some (idMapJson x.links).compact
  else if key = backlinkRow then some (idMapJson x.backlinks).compact
  else if key = fingerprintRow then some (stringMapJson x.fingerprints).compact
  else none

/-- What a write sets a row to, if it concerns the row: a text, or nothing. -/
def Write.sets? (key : String) : Write → Option (Option String)
  | .save x => (savedText? x key).map some
  | .clear => some none
  | .row k text => if key = k then some text else none

/-- What is in a row after some writes: what the last of them that concerns it set it to. -/
def lastSet (before : Option String) (key : String) (ws : List Write) : Option String :=
  (ws.reverse.findSome? (Write.sets? key)).getD before

theorem InOrder.write {s : Store} (h : s.InOrder) (w : Write) : (s.write w).InOrder := by
  cases w with
  | save x => exact h.save x
  | clear =>
    rw [Store.write, Store.clear, if_pos h.writable]
    exact ⟨h.readable, h.writable⟩
  | row key text => exact ⟨h.readable, h.writable⟩

theorem InOrder.after {s : Store} (h : s.InOrder) (ws : List Write) : (s.after ws).InOrder := by
  induction ws generalizing s with
  | nil => exact h
  | cons w ws ih => exact ih (h.write w)

theorem find?_save {s : Store} (h : s.InOrder) (x : Snapshot) (key : String) :
    (s.save x).rows.find? key = ((savedText? x key).map some).getD (s.rows.find? key) := by
  rw [Store.save, if_pos h.writable]
  simp only [SortedMap.find?_insert, savedText?]
  by_cases ht : key = tagRow
  · subst ht
    rfl
  by_cases hl : key = linkRow
  · subst hl
    rfl
  by_cases hb : key = backlinkRow
  · subst hb
    rfl
  by_cases hf : key = fingerprintRow
  · subst hf
    rfl
  simp [ht, hl, hb, hf]

theorem find?_write {s : Store} (h : s.InOrder) (w : Write) (key : String) :
    (s.write w).rows.find? key = (w.sets? key).getD (s.rows.find? key) := by
  cases w with
  | save x => exact find?_save h x key
  | clear =>
    rw [write, Store.clear, if_pos h.writable]
    rfl
  | row k text =>
    rw [write, writeRow, SortedMap.find?_alter, Write.sets?]
    split <;> rfl

theorem find?_after {s : Store} (h : s.InOrder) (ws : List Write) (key : String) :
    (s.after ws).rows.find? key = lastSet (s.rows.find? key) key ws := by
  induction ws generalizing s with
  | nil => rfl
  | cons w ws ih =>
    have hws := ih (h.write w)
    rw [find?_write h, lastSet] at hws
    rw [lastSet, List.reverse_cons, List.findSome?_append]
    refine hws.trans ?_
    cases ws.reverse.findSome? (Write.sets? key) with
    | some text => rfl
    | none => cases hw : w.sets? key <;> simp [hw]

/-- After any writes to a store in order, each row holds what the last write to it put there. If one
of the four rows is missing there is no snapshot; if they are all there they give just the snapshot
whose maps they are the texts of, one row for each map, and an error if one of them is not the text
of a map of its kind. A snapshot that was saved last of all is given back as it was. -/
theorem load_after_writes {s : Store} (h : s.InOrder) (ws : List Write) :
    let holds := fun key => lastSet (s.rows.find? key) key ws
    ((∃ key ∈ [tagRow, linkRow, backlinkRow, fingerprintRow], holds key = none) →
      (s.after ws).load = .ok none) ∧
    (∀ tags links backlinks fingerprints, holds tagRow = some tags → holds linkRow = some links →
      holds backlinkRow = some backlinks → holds fingerprintRow = some fingerprints →
      (∀ x, (s.after ws).load = .ok (some x) ↔ TextOfIds tags x.tags ∧ TextOfIds links x.links ∧
        TextOfIds backlinks x.backlinks ∧ TextOfStrings fingerprints x.fingerprints) ∧
      ((s.after ws).load = .error .malformed ↔ (¬ ∃ m, TextOfIds tags m) ∨
        (¬ ∃ m, TextOfIds links m) ∨ (¬ ∃ m, TextOfIds backlinks m) ∨
        ¬ ∃ m, TextOfStrings fingerprints m)) ∧
    ∀ x, (s.after (ws ++ [.save x])).load = .ok (some x) := by
  intro holds
  have hafter : (s.after ws).InOrder := h.after ws
  have hholds (key : String) : (s.after ws).rows.find? key = holds key := find?_after h ws key
  refine ⟨?_, ?_, ?_⟩
  · rintro ⟨key, hkey, hnone⟩
    exact load_of_missing hafter hkey ((hholds key).trans hnone)
  · intro tags links backlinks fingerprints ht hl hb hf
    have hrows : (s.after ws).HasRows tags links backlinks fingerprints :=
      ⟨(hholds _).trans ht, (hholds _).trans hl, (hholds _).trans hb, (hholds _).trans hf⟩
    exact ⟨hrows.load_eq_some_iff hafter, hrows.load_eq_malformed_iff hafter⟩
  · intro x
    have hlast : s.after (ws ++ [.save x]) = (s.after ws).save x := by
      rw [after, List.foldl_append]
      rfl
    rw [hlast]
    exact load_save hafter x

/-- One row is spoilt after a snapshot was saved; saving another mends it. -/
theorem load_after_writes_spoilt :
    let ws : List Write := [.save ∅, .row linkRow (some "nope")]
    empty.InOrder ∧ (empty.after ws).load = .error .malformed ∧
      ∀ x, (empty.after (ws ++ [.save x])).load = .ok (some x) := by
  intro ws
  obtain ⟨-, hrows, hsaved⟩ := load_after_writes inOrder_empty ws
  have herror := (hrows _ _ _ _ rfl rfl rfl rfl).2
  have hnope : ¬ ∃ m, TextOfIds "nope" m := by
    rintro ⟨m, fields, hparse, -⟩
    cases hparse
  exact ⟨inOrder_empty, herror.mpr (.inr (.inl hnope)), hsaved⟩

end Store

end NoteIndex
