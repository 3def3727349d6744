import NoteIndex.Proofs.Session.Storage
import NoteIndex.Proofs.Session.Upkeep
import NoteIndex.Proofs.Tag

/-!
# When a stored snapshot is taken up again

A catalog that is told of every change at once saves what it knows, so its store always has a
snapshot of just the notes there are. Another catalog over that store can do with it unless one of
its tags cannot be read back as a tag: those that begin with a hash sign, which blanks between hash
signs leave in front. Then the whole snapshot is of no use, and the index is built from the notes.
-/

namespace NoteIndex

namespace Index

variable (b : Notebook)

theorem mem_keys_tags_iff (t : String) :
    t ∈ (ofNotes b.notes).tags.keys ↔ ∃ n ∈ b.notes, t ∈ (Record.ofNote n).tags := by
  have hstep := InStep.ofNotes b
  rw [hstep.knows.exact.tags.mem_keys_iff, hstep.order]
  simp only [Records.Tagged, Keyed.has_iff_exists, values_records, List.mem_map]
  constructor
  · rintro ⟨id, r, ⟨n, hn, rfl⟩, ht, -⟩
    exact ⟨n, hn, ht⟩
  · rintro ⟨n, hn, ht⟩
    exact ⟨_, _, ⟨n, hn, rfl⟩, ht, rfl⟩

/-- The snapshot of an index passes the check against the notes of the index. -/
theorem validate_adopt_snapshot :
    (adopt b.notes (ofNotes b.notes).snapshot).validate.hasErrors = false := by
  have hstep := InStep.ofNotes b
  have hexact := hstep.knows.exact
  have hrecords : (adopt b.notes (ofNotes b.notes).snapshot).records = (ofNotes b.notes).records :=
    (ofValues_records b).trans hstep.order.symm
  rw [validate_hasErrors_iff, hrecords]
  exact ⟨hexact.tags, hexact.links, hexact.backlinks⟩

/-- A tag of a note that cannot be read back begins with a hash sign. -/
theorem any_key_unreadable_iff :
    ((ofNotes b.notes).tags.keys.any fun k => Tag.parse? k ≠ some ⟨k⟩) = true ↔
      ∃ n ∈ b.notes, ∃ t ∈ (Record.ofNote n).tags, t.toList.head? = some '#' := by
  have hread {n : Note} {t : String} (ht : t ∈ (Record.ofNote n).tags) :
      Tag.parse? t ≠ some ⟨t⟩ ↔ t.toList.head? = some '#' :=
    (not_congr (Record.parse?_tag_iff ht)).trans not_not
  rw [List.any_eq_true]
  constructor
  · rintro ⟨t, ht, hne⟩
    obtain ⟨n, hn, hmem⟩ := (mem_keys_tags_iff b t).mp ht
    exact ⟨n, hn, t, hmem, (hread hmem).mp (of_decide_eq_true hne)⟩
  · rintro ⟨n, hn, t, hmem, hhash⟩
    exact ⟨t, (mem_keys_tags_iff b t).mpr ⟨n, hn, hmem⟩, decide_eq_true ((hread hmem).mpr hhash)⟩

/-- Of what is looked at, only the tags can stand in the way. -/
theorem restore?_snapshot_isSome_iff :
    (restore? b.notes (ofNotes b.notes).snapshot).isSome = true ↔
      ∀ n ∈ b.notes, ∀ t ∈ (Record.ofNote n).tags, t.toList.head? ≠ some '#' := by
  have hprints : ¬ (fingerprintsOf b.notes).entries ≠
      (ofNotes b.notes).snapshot.fingerprints.entries := by
    rw [snapshot, fingerprints_ofNotes]
    exact not_not_intro rfl
  have htags := any_key_unreadable_iff b
  rw [restore?, if_neg hprints]
  split
  · rename_i hany
    obtain ⟨n, hn, t, hmem, hhash⟩ := htags.mp hany
    exact iff_of_false Bool.false_ne_true fun h => h n hn t hmem hhash
  · rename_i hany
    have hpasses : ¬ (adopt b.notes (ofNotes b.notes).snapshot).validate.hasErrors = true := by
      rw [validate_adopt_snapshot]
      exact Bool.false_ne_true
    simp only [if_neg hpasses]
    refine iff_of_true rfl fun n hn t hmem hhash => hany ?_
    exact htags.mpr ⟨n, hn, t, hmem, hhash⟩

end Index

namespace Catalog

variable {c : Catalog} {b : Notebook}

/-- A build saves, if the store it leaves is in order: it was in order before. -/
theorem BuiltOver.saved (h : BuiltOver b c) (hs : c.StoreInOrder) : c.Saved := by
  have hbuild (d : Catalog) (cached : Option Snapshot)
      (hs : (d.build b cached).1.StoreInOrder) : (d.build b cached).1.Saved := by
    refine saved_build ?_ cached
    obtain ⟨s, hstore, horder⟩ := hs
    change (persist { d with index := _, initialized := true }).store = some s at hstore
    rw [persist, if_pos rfl] at hstore
    obtain ⟨s', hs', rfl⟩ := Option.map_eq_some_iff.mp hstore
    exact ⟨s', hs', (Store.inOrder_save_iff _).mp horder⟩
  cases h with
  | init d hd =>
    rw [Catalog.init, if_neg (by rw [hd]; decide)] at hs ⊢
    exact hbuild d d.cached hs
  | rebuild d => exact hbuild d none hs

end Catalog

namespace Session

variable {s : Session}

/-- A new catalog over the store of one that is in step. -/
theorem InStep.reuse (h : s.InStep) (hs : s.catalog.Saved) :
    let d := (Catalog.fresh s.catalog.store).init s.book
    d.1.snapshot = s.catalog.snapshot ∧ ∃ r, d.2 = some r ∧
      (r.fromSnapshot = true ↔
        ∀ n ∈ s.book.notes, ∀ t ∈ (Record.ofNote n).tags, t.toList.head? ≠ some '#') := by
  intro d
  have hindex : s.catalog.index = Index.ofNotes s.book.notes :=
    h.index.eq (Index.InStep.ofNotes s.book)
  have hcached : (Catalog.fresh s.catalog.store).cached =
      some (Index.ofNotes s.book.notes).snapshot := by
    rw [← hindex]
    exact hs.cached
  refine ⟨?_, _, Catalog.result_init _ s.book rfl, ?_⟩
  · have hd : d.1.index = Index.ofNotes s.book.notes := Catalog.index_init _ s.book rfl
    rw [Catalog.snapshot, Catalog.snapshot, hd, hindex]
  · rw [Catalog.result_build, hcached, Option.bind_some]
    exact Index.restore?_snapshot_isSome_iff s.book

theorem saved_after (hi : s.catalog.initialized = true) (h : s.catalog.Saved)
    (rs : List Request) : (s.after rs).catalog.Saved :=
  (synced_after (Catalog.Synced.of_saved hi h) rs).since (initialized_after hi rs)

/-- After a build with a store in order, and changes told of at once, a new catalog with the same
store comes to the same snapshot. It takes up the stored one just if no tag begins with a hash
sign. -/
theorem snapshot_reused_iff {c : Catalog} {b : Notebook} (hc : Catalog.BuiltOver b c)
    (hs : c.StoreInOrder) (cs : List Change) :
    let s := (Session.mk b c).after (cs.flatMap Change.requests)
    let d := (Catalog.fresh s.catalog.store).init s.book
    d.1.snapshot = s.catalog.snapshot ∧ ∃ r, d.2 = some r ∧
      (r.fromSnapshot = true ↔
        ∀ n ∈ s.book.notes, ∀ t ∈ (Record.ofNote n).tags, t.toList.head? ≠ some '#') := by
  intro s d
  have hstart : (Session.mk b c).InStep := ⟨hc.initialized, hc.inStep⟩
  have hsaved : s.catalog.Saved := saved_after hc.initialized (hc.saved hs) _
  exact (hstart.changes cs).reuse hsaved

/-- Hash signs in front of tags do no harm, and neither do letters with more than one lower case. -/
def tagged : Note := .page "t" "Tagged" "---\ntags: [#Work, \"## ΟΔΟΣ\"]\n---\n#İnline #a-b"

theorem snapshot_reused_tagged :
    let c := ((Catalog.fresh (some .empty)).init earlier).1
    let s := (Session.mk earlier c).after ([.put tagged, .lose "a"].flatMap Change.requests)
    let d := (Catalog.fresh s.catalog.store).init s.book
    Catalog.BuiltOver earlier c ∧ c.StoreInOrder ∧
      d.1.snapshot = s.catalog.snapshot ∧ ∃ r, d.2 = some r ∧ r.fromSnapshot = true := by
  intro c s d
  have hc : Catalog.BuiltOver earlier c := .init _ rfl
  have hs : c.StoreInOrder := Catalog.Synced.fresh.init.storeInOrder
  obtain ⟨hsnapshot, r, hr, hiff⟩ := snapshot_reused_iff hc hs [.put tagged, .lose "a"]
  refine ⟨hc, hs, hsnapshot, r, hr, hiff.mpr ?_⟩
  change ∀ n ∈ [Note.page "b" "Beta" "#tag", tagged], ∀ t ∈ (Record.ofNote n).tags.toList,
    t.toList.head? ≠ some '#'
  decide +kernel

/-- The text `# #a` of a tag leaves `#a`, which is read back as `a`. -/
def hashed : Notebook := .ofNotes [.page "a" "Alpha" "---\ntags: # #a\n---\n"]

theorem snapshot_of_hashed_not_reused :
    let c := ((Catalog.fresh (some .empty)).init hashed).1
    let d := (Catalog.fresh c.store).init hashed
    c.Saved ∧ d.1.snapshot = c.snapshot ∧ ∃ r, d.2 = some r ∧ r.fromSnapshot = false := by
  intro c d
  have hc : Catalog.BuiltOver hashed c := .init _ rfl
  have hsaved : c.Saved := hc.saved Catalog.Synced.fresh.init.storeInOrder
  have hstep : (Session.mk hashed c).InStep := ⟨hc.initialized, hc.inStep⟩
  obtain ⟨hsnapshot, r, hr, hiff⟩ := hstep.reuse hsaved
  refine ⟨hsaved, hsnapshot, r, hr, Bool.eq_false_iff.mpr fun htrue => ?_⟩
  have htag : ∃ n ∈ [Note.page "a" "Alpha" "---\ntags: # #a\n---\n"],
      ∃ t ∈ (Record.ofNote n).tags.toList, t.toList.head? = some '#' := by
    decide +kernel
  obtain ⟨n, hn, t, ht, hhash⟩ := htag
  exact hiff.mp htrue n hn t ht hhash

end Session

end NoteIndex
