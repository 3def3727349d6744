import NoteIndex.Proofs.Session.Basic

/-!
# Keeping an index up to date

Telling the catalog of every note that changed is enough to bring its index up to a later notebook,
in whatever order and however often that is done: each note is known as it was when it was last told
of, and the maps follow from what is known at each moment. Where every change is told at once, the
index keeps the order of the notebook too, and then it is the very index that a build would give.
-/

namespace NoteIndex.Session

variable {s t : Session}

/-! ## Catching up with a notebook -/

theorem knows_update {notes : String → Option Note} (h : s.catalog.index.Knows notes)
    (id : String) :
    (s.catalog.update s.book id).index.Knows fun j =>
      if j = id then s.book.find? id else notes j := by
  cases hn : s.book.find? id with
  | none =>
    rw [s.catalog.index_update_of_none s.book hn]
    exact h.leave id
  | some n =>
    have hid : n.id = id := Keyed.key_of_find? hn
    rw [s.catalog.index_update_of_some s.book hn, ← hid]
    exact h.enterNote n

/-- After some updates the notes told of are known as they are now, and the others as before. -/
theorem knows_updates {notes : String → Option Note} (h : s.catalog.index.Knows notes)
    (ids : List String) :
    (s.after (ids.map .update)).catalog.index.Knows fun j =>
      if j ∈ ids then s.book.find? j else notes j := by
  induction ids generalizing s notes with
  | nil => exact h.congr fun j => by simp
  | cons id ids ih =>
    have hnext := ih (s := (s.respond (.update id)).1) (knows_update h id)
    refine hnext.congr fun j => ?_
    change (if j ∈ ids then s.book.find? j else if j = id then s.book.find? id else notes j) = _
    by_cases hj : j = id
    · subst hj
      simp
    · simp [hj]

/-- Telling of at least the notes that have changed makes all notes known as they are now. -/
theorem knows_catch_up {c : Catalog} {b₀ b₁ : Notebook} (hc : Catalog.BuiltOver b₀ c)
    {ids : List String} (hids : ∀ id, b₀.find? id ≠ b₁.find? id → id ∈ ids) :
    ((Session.mk b₁ c).after (ids.map .update)).catalog.index.Knows b₁.find? := by
  have hknows := knows_updates (s := ⟨b₁, c⟩) hc.inStep.knows ids
  refine hknows.congr fun j => ?_
  by_cases hj : j ∈ ids
  · exact if_pos hj
  · have hsame : b₀.find? j = b₁.find? j := Classical.not_not.mp fun hne => hj (hids j hne)
    rw [if_neg hj]
    exact hsame

/-- An index built over an earlier notebook, and told in whatever order of at least the notes that
have changed since, agrees with one built anew, and so with one told in any other order. -/
theorem updates_agree_build {c : Catalog} {b₀ b₁ : Notebook} (hc : Catalog.BuiltOver b₀ c)
    (ids : List String) (hids : ∀ id, b₀.find? id ≠ b₁.find? id → id ∈ ids)
    (store : Option Store) :
    ((Session.mk b₁ c).after (ids.map .update)).catalog.index.Agree
        ((Catalog.fresh store).init b₁).1.index ∧
      ∀ ids' : List String, (∀ id, b₀.find? id ≠ b₁.find? id → id ∈ ids') →
        ((Session.mk b₁ c).after (ids.map .update)).catalog.index.Agree
          ((Session.mk b₁ c).after (ids'.map .update)).catalog.index := by
  have hknows := knows_catch_up hc hids
  have hbuilt : Catalog.BuiltOver b₁ ((Catalog.fresh store).init b₁).1 := .init _ rfl
  constructor
  · exact hknows.agree hbuilt.inStep.knows
  · intro ids' hids'
    exact hknows.agree (knows_catch_up hc hids')

def earlier : Notebook := .ofNotes [.page "a" "Alpha" "[[Beta]]", .page "b" "Beta" "#tag"]

/-- Of the notes before, one has been renamed and one has gone; a third has taken its title. -/
def later : Notebook := .ofNotes [.page "c" "Beta" "[[Gamma]]", .page "a" "Gamma" "[[Beta]]"]

theorem updates_agree_build_later :
    Catalog.BuiltOver earlier ((Catalog.fresh none).init earlier).1 ∧
      (∀ id, earlier.find? id ≠ later.find? id → id ∈ ["c", "a", "z", "b", "a"]) ∧
      ((Session.mk later ((Catalog.fresh none).init earlier).1).after
        (["c", "a", "z", "b", "a"].map .update)).catalog.index.Agree
          ((Catalog.fresh none).init later).1.index := by
  have hbuilt : Catalog.BuiltOver earlier ((Catalog.fresh none).init earlier).1 := .init _ rfl
  have hids : ∀ id, earlier.find? id ≠ later.find? id → id ∈ ["c", "a", "z", "b", "a"] := by
    intro id hne
    refine Classical.byContradiction fun hid => hne ?_
    simp only [List.mem_cons, List.not_mem_nil, or_false, not_or] at hid
    simp [earlier, later, Notebook.ofNotes, Keyed.ofValues, Note.page, hid]
  exact ⟨hbuilt, hids, (updates_agree_build hbuilt _ hids none).1⟩

/-! ## Staying in step -/

/-- A change of the notebook of which the catalog is told at once. -/
inductive Change where
  | put (n : Note)
  | remove (id : String)
  /-- The catalog finds out by itself that the note is gone. -/
  | lose (id : String)

def Change.requests : Change → List Request
  | .put n => [.put n, .update n.id]
  | .remove id => [.drop id, .remove id]
  | .lose id => [.drop id, .update id]

/-- The catalog is built, and its index is the one of the notebook. -/
structure InStep (s : Session) : Prop where
  initialized : s.catalog.initialized = true
  index : s.catalog.index.InStep s.book

theorem InStep.change (h : s.InStep) (c : Change) : (s.after c.requests).InStep := by
  cases c with
  | put n =>
    have hn : (s.book.add n).find? n.id = some n := by simp
    refine ⟨?_, ?_⟩
    · change (s.catalog.update (s.book.add n) n.id).initialized = true
      rw [Catalog.initialized_update]
      exact h.initialized
    · change (s.catalog.update (s.book.add n) n.id).index.InStep (s.book.add n)
      rw [s.catalog.index_update_of_some _ hn]
      exact h.index.enterNote n
  | remove id =>
    refine ⟨?_, ?_⟩
    · change (s.catalog.remove id).initialized = true
      rw [Catalog.initialized_remove]
      exact h.initialized
    · change (s.catalog.remove id).index.InStep (s.book.erase id)
      rw [Catalog.index_remove]
      exact h.index.leave id
  | lose id =>
    have hnone : (s.book.erase id).find? id = none := by simp
    refine ⟨?_, ?_⟩
    · change (s.catalog.update (s.book.erase id) id).initialized = true
      rw [Catalog.initialized_update]
      exact h.initialized
    · change (s.catalog.update (s.book.erase id) id).index.InStep (s.book.erase id)
      rw [s.catalog.index_update_of_none _ hnone]
      exact h.index.leave id

theorem InStep.changes (h : s.InStep) (cs : List Change) :
    (s.after (cs.flatMap Change.requests)).InStep := by
  induction cs generalizing s with
  | nil => exact h
  | cons c cs ih =>
    rw [List.flatMap_cons, after_append]
    exact ih (h.change c)

/-- A catalog told of every change at once is, to all appearances, one built over the notebook as it
then is: it has the same index, with its records in the order of the notes, and answers the same. -/
theorem changes_match_build {c : Catalog} {b : Notebook} (hc : Catalog.BuiltOver b c)
    (cs : List Change) (store : Option Store) :
    let s := (Session.mk b c).after (cs.flatMap Change.requests)
    let t := Session.mk s.book ((Catalog.fresh store).init s.book).1
    s.catalog.index = t.catalog.index ∧
      s.catalog.index.records.values = s.book.notes.map Record.ofNote ∧
      ∀ rs, s.answers rs = t.answers rs := by
  intro s t
  have hstart : (Session.mk b c).InStep := ⟨hc.initialized, hc.inStep⟩
  have hs : s.InStep := hstart.changes cs
  have hbuilt : Catalog.BuiltOver s.book ((Catalog.fresh store).init s.book).1 := .init _ rfl
  have hindex : s.catalog.index = t.catalog.index := hs.index.eq hbuilt.inStep
  refine ⟨hindex, ?_, fun rs => ?_⟩
  · rw [hs.index.order]
    exact Index.values_records s.book
  · have halike : s.Alike t := ⟨rfl, hindex, hs.initialized, hbuilt.initialized⟩
    exact halike.answers rs

/-- A note put in anew goes to the end, in the index as in the notebook. -/
theorem changes_match_build_later :
    Catalog.BuiltOver earlier ((Catalog.fresh none).init earlier).1 ∧
      let s := (Session.mk earlier ((Catalog.fresh none).init earlier).1).after
        ([.lose "a", .put (.page "b" "Alpha" ""), .put (.page "a" "Beta" "")].flatMap
          Change.requests)
      s.catalog.index = ((Catalog.fresh none).init s.book).1.index ∧
        s.catalog.index.records.values =
          [.ofNote (.page "b" "Alpha" ""), .ofNote (.page "a" "Beta" "")] := by
  have hbuilt : Catalog.BuiltOver earlier ((Catalog.fresh none).init earlier).1 := .init _ rfl
  have hmatch := changes_match_build hbuilt
    [.lose "a", .put (.page "b" "Alpha" ""), .put (.page "a" "Beta" "")] none
  exact ⟨hbuilt, hmatch.1, hmatch.2.1⟩

end NoteIndex.Session
