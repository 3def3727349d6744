import NoteIndex.Proofs.Catalog

/-!
# Sessions

A session is a notebook and the catalog kept over it. Requests change either of the two, or read the
index; each has an answer. Nothing makes the two change together: a note may be put into the
notebook long before the catalog is told of it, or be told of when nothing has changed.

After any requests the index is exact. What is answered depends on the notebook and the index alone
once the index is built.
-/

namespace NoteIndex

/-- A note of text alone, for the examples. -/
def Note.page (id title content : String) : Note := ⟨id, title, id, content, [], ⟨0, 0⟩, ⟨0, 0⟩⟩

/-- What can be read off an index. -/
inductive Reading where
  | get (id : String)
  | records
  | byTag (tag : String)
  | backlinksTo (id : String)
  | linkingTo (target : String)
  | allTags
  | search (text : String)
  | withEntry (key : String) (value : Value)
  | resolve (name : String)
  | validate
  | snapshot

inductive Request where
  /-- Puts a note into the notebook, in place of the one of its identifier. -/
  | put (n : Note)
  /-- Takes a note out of the notebook. -/
  | drop (id : String)
  | init
  | rebuild
  | update (id : String)
  | remove (id : String)
  | run (q : Query)
  | execute (text : String)
  | read (r : Reading)

inductive Answer where
  | done
  | note (n : Option Note)
  | built (result : Option BuildResult)
  | record (r : Option Record)
  | records (rs : List Record)
  | tags (counts : List (String × Nat))
  | resolution (r : Index.Resolution)
  | issues (is : Issues)
  | snapshot (s : Snapshot)
  | results (r : Option (Except Query.Error Query.Results))
  | outcome (o : Option Query.Outcome)

def Index.answer (x : Index) : Reading → Answer
  | .get id => .record (x.records.find? id)
  | .records => .records x.records.values
  | .byTag tag => .records (x.byTag tag)
  | .backlinksTo id => .records (x.backlinksTo id)
  | .linkingTo target => .records (x.linkingTo target)
  | .allTags => .tags x.allTags
  | .search text => .records (x.search text)
  | .withEntry key value => .records (x.withEntry key value)
  | .resolve name => .resolution (x.resolve name)
  | .validate => .issues x.validate
  | .snapshot => .snapshot x.snapshot

structure Session where
  book : Notebook
  catalog : Catalog

namespace Session

/-- Nothing written and nothing built, with or without a store, which may hold anything. -/
def start (store : Option Store) : Session := ⟨∅, .fresh store⟩

def respond (s : Session) : Request → Session × Answer
  | .put n => (⟨s.book.add n, s.catalog⟩, .done)
  | .drop id => (⟨s.book.erase id, s.catalog⟩, .note (s.book.find? id))
  | .init => (⟨s.book, (s.catalog.init s.book).1⟩, .built (s.catalog.init s.book).2)
  | .rebuild =>
    (⟨s.book, (s.catalog.rebuild s.book).1⟩, .built (some (s.catalog.rebuild s.book).2))
  | .update id =>
    let c := s.catalog.update s.book id
    (⟨s.book, c⟩, .record ((s.book.find? id).bind fun _ => c.index.records.find? id))
  | .remove id => (⟨s.book, s.catalog.remove id⟩, .done)
  | .run q => (⟨s.book, (s.catalog.run s.book q).1⟩, .results (s.catalog.run s.book q).2)
  | .execute text =>
    (⟨s.book, (s.catalog.execute s.book text).1⟩, .outcome (s.catalog.execute s.book text).2)
  | .read r => (s, s.catalog.index.answer r)

def after (s : Session) : List Request → Session
  | [] => s
  | r :: rs => (s.respond r).1.after rs

def answers (s : Session) : List Request → List Answer
  | [] => []
  | r :: rs => (s.respond r).2 :: (s.respond r).1.answers rs

theorem after_append (s : Session) (rs qs : List Request) :
    s.after (rs ++ qs) = (s.after rs).after qs := by
  induction rs generalizing s with
  | nil => rfl
  | cons r rs ih => exact ih (s.respond r).1

/-! ## What is true of every index that is reached -/

variable {s t : Session}

/-- A property that an index has when it is built and keeps when a note is entered or taken out. -/
structure Invariant (P : Index → Prop) : Prop where
  built : ∀ b : Notebook, P (Index.ofNotes b.notes)
  entered : ∀ {x : Index}, P x → ∀ n, P (x.enterNote n)
  left : ∀ {x : Index}, P x → ∀ id, P (x.leave id)

namespace Invariant

variable {P : Index → Prop}

theorem init (hP : Invariant P) (h : P s.catalog.index) : P (s.catalog.init s.book).1.index := by
  cases hi : s.catalog.initialized with
  | false =>
    rw [s.catalog.index_init s.book hi]
    exact hP.built s.book
  | true =>
    rw [s.catalog.init_of_initialized s.book hi]
    exact h

theorem update (hP : Invariant P) {c : Catalog} (h : P c.index) (b : Notebook) (id : String) :
    P (c.update b id).index := by
  cases hn : b.find? id with
  | none =>
    rw [c.index_update_of_none b hn]
    exact hP.left h id
  | some n =>
    rw [c.index_update_of_some b hn]
    exact hP.entered h n

theorem remove (hP : Invariant P) {c : Catalog} (h : P c.index) (id : String) :
    P (c.remove id).index := by
  rw [Catalog.index_remove]
  exact hP.left h id

theorem respond (hP : Invariant P) (h : P s.catalog.index) (r : Request) :
    P (s.respond r).1.catalog.index := by
  cases r with
  | put n => exact h
  | drop id => exact h
  | init => exact hP.init h
  | rebuild =>
    change P (s.catalog.rebuild s.book).1.index
    rw [Catalog.index_rebuild]
    exact hP.built s.book
  | update id => exact hP.update h s.book id
  | remove id => exact hP.remove h id
  | run q => exact hP.init h
  | execute text =>
    change P (s.catalog.execute s.book text).1.index
    rcases s.catalog.execute_catalog s.book text with he | he
    · rw [he]
      exact h
    · rw [he]
      exact hP.init h
  | read r => exact h

theorem after (hP : Invariant P) (h : P s.catalog.index) (rs : List Request) :
    P (s.after rs).catalog.index := by
  induction rs generalizing s with
  | nil => exact h
  | cons r rs ih => exact ih (hP.respond h r)

/-- At the start the index is that of no notes. -/
theorem reached (hP : Invariant P) (store : Option Store) (rs : List Request) :
    P ((start store).after rs).catalog.index :=
  hP.after (s := start store) (hP.built ∅) rs

end Invariant

theorem exact_invariant : Invariant Index.Exact where
  built b := (Index.InStep.ofNotes b).knows.exact
  entered h _ := h.enter _ _
  left h id := h.leave id

/-- What an index holds of a note comes from some note, if not from one that is still there. -/
theorem knows_invariant : Invariant fun x => ∃ notes, x.Knows notes where
  built b := ⟨_, (Index.InStep.ofNotes b).knows⟩
  entered h n := h.imp' _ fun _ hx => hx.enterNote n
  left h id := h.imp' _ fun _ hx => hx.leave id

theorem exact_after (h : s.catalog.index.Exact) (rs : List Request) :
    (s.after rs).catalog.index.Exact :=
  exact_invariant.after h rs

/-- Whatever is asked of a session from its start, in whatever order, its index lists just what its
records give and passes its own check, which is made after every build and change of a note. -/
theorem reachable_index_exact (store : Option Store) (rs : List Request) :
    ((start store).after rs).catalog.index.Exact ∧
      ((start store).after rs).catalog.index.validate.hasErrors = false := by
  have h : ((start store).after rs).catalog.index.Exact :=
    exact_after Index.exact_empty rs
  exact ⟨h, h.validate⟩

/-! ## Built for the first time -/

theorem builtOver_init (s : Session) (h : s.catalog.initialized = false) :
    Catalog.BuiltOver (s.respond .init).1.book (s.respond .init).1.catalog := .init _ h

theorem mem_records_init (s : Session) (h : s.catalog.initialized = false) {n : Note}
    (hn : n ∈ (s.respond .init).1.book.notes) :
    Record.ofNote n ∈ (s.respond .init).1.catalog.index.records.values := by
  rw [(builtOver_init s h).inStep.order, Index.values_records]
  exact List.mem_map_of_mem hn

/-! ## Answers come from the notebook and the index -/

/-- The sessions have the same notebook and the same index, which is built. -/
structure Alike (s t : Session) : Prop where
  book : s.book = t.book
  index : s.catalog.index = t.catalog.index
  left : s.catalog.initialized = true
  right : t.catalog.initialized = true

theorem initialized_respond (h : s.catalog.initialized = true) (r : Request) :
    (s.respond r).1.catalog.initialized = true := by
  cases r with
  | put n => exact h
  | drop id => exact h
  | init => exact s.catalog.initialized_init s.book
  | rebuild => exact s.catalog.initialized_rebuild s.book
  | update id => exact (s.catalog.initialized_update s.book id).trans h
  | remove id => exact (s.catalog.initialized_remove id).trans h
  | run q => exact s.catalog.initialized_init s.book
  | execute text =>
    change (s.catalog.execute s.book text).1.initialized = true
    rcases s.catalog.execute_catalog s.book text with he | he
    · rw [he]
      exact h
    · rw [he]
      exact s.catalog.initialized_init s.book
  | read r => exact h

theorem index_execute (h : s.catalog.initialized = true) (text : String) :
    (s.catalog.execute s.book text).1.index = s.catalog.index := by
  rcases s.catalog.execute_catalog s.book text with he | he
  · rw [he]
  · rw [he, s.catalog.init_of_initialized s.book h]

theorem update_congr {c d : Catalog} (h : c.index = d.index) (b : Notebook) (id : String) :
    (c.update b id).index = (d.update b id).index := by
  cases hn : b.find? id with
  | none => rw [c.index_update_of_none b hn, d.index_update_of_none b hn, h]
  | some n => rw [c.index_update_of_some b hn, d.index_update_of_some b hn, h]

theorem Alike.respond (h : s.Alike t) (r : Request) :
    (s.respond r).2 = (t.respond r).2 ∧ (s.respond r).1.Alike (t.respond r).1 := by
  obtain ⟨b, c⟩ := s
  obtain ⟨b', d⟩ := t
  obtain ⟨rfl, hindex, hc, hd⟩ := h
  have hnext (hb : (respond ⟨b, c⟩ r).1.book = (respond ⟨b, d⟩ r).1.book)
      (hx : (respond ⟨b, c⟩ r).1.catalog.index = (respond ⟨b, d⟩ r).1.catalog.index) :
      (respond ⟨b, c⟩ r).1.Alike (respond ⟨b, d⟩ r).1 :=
    ⟨hb, hx, initialized_respond hc r, initialized_respond hd r⟩
  cases r with
  | put n => exact ⟨rfl, hnext rfl hindex⟩
  | drop id => exact ⟨rfl, hnext rfl hindex⟩
  | init =>
    have hsame : (c.init b).2 = (d.init b).2 := by
      rw [c.init_of_initialized b hc, d.init_of_initialized b hd]
    have hinit : (c.init b).1.index = (d.init b).1.index := by
      rw [c.init_of_initialized b hc, d.init_of_initialized b hd]
      exact hindex
    exact ⟨congrArg Answer.built hsame, hnext rfl hinit⟩
  | rebuild =>
    have hbuilt : (c.rebuild b).1.index = (d.rebuild b).1.index := by
      rw [c.index_rebuild, d.index_rebuild]
    have hsame : (c.rebuild b).2 = (d.rebuild b).2 := by
      rw [c.result_rebuild, d.result_rebuild]
    exact ⟨congrArg (fun r => Answer.built (some r)) hsame, hnext rfl hbuilt⟩
  | update id =>
    have hupdate : (c.update b id).index = (d.update b id).index := update_congr hindex b id
    refine ⟨?_, hnext rfl hupdate⟩
    change Answer.record _ = Answer.record _
    rw [hupdate]
  | remove id =>
    have hremove : (c.remove id).index = (d.remove id).index := by
      rw [c.index_remove, d.index_remove]
      exact congrArg (·.leave id) hindex
    exact ⟨rfl, hnext rfl hremove⟩
  | run q =>
    have hsame : (c.run b q).2 = (d.run b q).2 := by
      rw [c.run_of_initialized b hc, d.run_of_initialized b hd]
      exact congrArg (q.run · b) hindex
    have hrun : (c.run b q).1.index = (d.run b q).1.index := by
      rw [c.run_of_initialized b hc, d.run_of_initialized b hd]
      exact hindex
    exact ⟨congrArg Answer.results hsame, hnext rfl hrun⟩
  | execute text =>
    have hsame := Catalog.execute_congr b hc hd hindex text
    refine ⟨congrArg Answer.outcome hsame, hnext rfl ?_⟩
    exact (index_execute (s := ⟨b, c⟩) hc text).trans
      (hindex.trans (index_execute (s := ⟨b, d⟩) hd text).symm)
  | read r => exact ⟨congrArg (·.answer r) hindex, hnext rfl hindex⟩

/-- Alike sessions answer alike, however long they are asked. -/
theorem Alike.answers (h : s.Alike t) (rs : List Request) : s.answers rs = t.answers rs := by
  induction rs generalizing s t with
  | nil => rfl
  | cons r rs ih =>
    obtain ⟨hanswer, hnext⟩ := h.respond r
    change (s.respond r).2 :: (s.respond r).1.answers rs = _
    rw [hanswer, ih hnext]
    rfl

end Session

end NoteIndex
