import NoteIndex.Proofs.Session.Upkeep

/-!
# What a change of one note leaves alone

Reading a note again, or taking it out, touches what involves that note and nothing else. Entries of
other notes stay, and so do the links between others: whether there is one hangs on the two notes at
its ends. This holds for a note in any new form, of a new title too, and whether it was there before
or not.
-/

namespace NoteIndex

namespace Index

/-- Apart from the note `id` the indexes hold the same: the same notes under each tag, link key and
title, the same links between notes, the same records in one order and the same fingerprints. -/
structure SameBut (id : String) (x y : Index) : Prop where
  tags : ∀ t a, a ≠ id → (a ∈ y.tags.ids t ↔ a ∈ x.tags.ids t)
  links : ∀ key a, a ≠ id → (a ∈ y.links.ids key ↔ a ∈ x.links.ids key)
  titles : ∀ key a, a ≠ id → (a ∈ y.titles.ids key ↔ a ∈ x.titles.ids key)
  backlinks : ∀ b a, b ≠ id → a ≠ id → (a ∈ y.backlinks.ids b ↔ a ∈ x.backlinks.ids b)
  outbound : ∀ a b, a ≠ id → b ≠ id → (b ∈ y.outbound.ids a ↔ b ∈ x.outbound.ids a)
  records : ∀ a, a ≠ id → y.records.find? a = x.records.find? a
  fingerprints : ∀ a, a ≠ id → y.fingerprints.find? a = x.fingerprints.find? a
  order : y.records.others id = x.records.others id

namespace Exact

variable {x y : Index} {id : String}

/-- Of exact indexes only the records and the fingerprints have to be looked at. -/
theorem sameBut (hx : x.Exact) (hy : y.Exact)
    (hrecords : ∀ a, a ≠ id → y.records.find? a = x.records.find? a)
    (hprints : ∀ a, a ≠ id → y.fingerprints.find? a = x.fingerprints.find? a)
    (horder : y.records.others id = x.records.others id) : SameBut id x y := by
  have halike {a : String} (ha : a ≠ id) : Records.AlikeAt y.records x.records a :=
    .of_eq (hrecords a ha)
  refine ⟨fun t a ha => ?_, fun key a ha => ?_, fun key a ha => ?_, fun b a hb ha => ?_,
    fun a b ha hb => ?_, hrecords, hprints, horder⟩
  · rw [hy.tags.mem_iff, hx.tags.mem_iff]
    exact (halike ha).tagged t
  · rw [hy.links.mem_iff, hx.links.mem_iff]
    exact (halike ha).linksBy key
  · rw [hy.titles.mem_iff, hx.titles.mem_iff]
    exact (halike ha).titled key
  · rw [hy.backlinks.mem_iff, hx.backlinks.mem_iff]
    exact (halike ha).linksTo (halike hb)
  · rw [hy.outbound.mem_iff, hx.outbound.mem_iff]
    exact (halike ha).linksTo (halike hb)

theorem sameBut_enter (h : x.Exact) (r : Record) (fingerprint : String) :
    SameBut r.id x (x.enter r fingerprint) := by
  refine h.sameBut (h.enter r fingerprint) (fun a ha => ?_) (fun a ha => ?_) ?_
  · rw [records_enter, Keyed.find?_add, if_neg ha]
  · rw [fingerprints_enter, SortedMap.find?_insert, if_neg ha]
  · rw [records_enter, Keyed.others_add]

theorem sameBut_leave (h : x.Exact) (id : String) : SameBut id x (x.leave id) := by
  refine h.sameBut (h.leave id) (fun a ha => ?_) (fun a ha => ?_) ?_
  · rw [records_leave, Keyed.find?_erase, if_neg ha]
  · rw [h.find?_fingerprints_leave, if_neg ha]
  · rw [records_leave, Keyed.others_erase]

end Exact

end Index

namespace Catalog

variable {c : Catalog} {id : String}

theorem sameBut_remove (h : c.index.Exact) : Index.SameBut id c.index (c.remove id).index := by
  rw [index_remove]
  exact h.sameBut_leave id

theorem sameBut_update (h : c.index.Exact) (b : Notebook) :
    Index.SameBut id c.index (c.update b id).index := by
  cases hn : b.find? id with
  | none =>
    rw [c.index_update_of_none b hn]
    exact h.sameBut_leave id
  | some n =>
    obtain rfl : n.id = id := Keyed.key_of_find? hn
    rw [c.index_update_of_some b hn]
    exact h.sameBut_enter (.ofNote n) n.fingerprint

end Catalog

namespace Session

/-- Whatever has been asked of a session, when its catalog is told of a note by any notebook, or
told to take the note out, the index changes in what involves that note alone. The note itself has
then the record that the notebook gives it, or none. -/
theorem change_spares_others (store : Option Store) (rs : List Request) (b : Notebook)
    (id : String) :
    let c := ((start store).after rs).catalog
    (Index.SameBut id c.index (c.update b id).index ∧
      (c.update b id).index.records.find? id = (b.find? id).map Record.ofNote) ∧
    (Index.SameBut id c.index (c.remove id).index ∧
      (c.remove id).index.records.find? id = none) := by
  intro c
  obtain ⟨notes, hknows⟩ := knows_invariant.reached store rs
  have hexact : c.index.Exact := hknows.exact
  have hupdate := (knows_update (s := ⟨b, c⟩) hknows id).records id
  rw [if_pos rfl] at hupdate
  refine ⟨⟨Catalog.sameBut_update hexact b, hupdate⟩, Catalog.sameBut_remove hexact, ?_⟩
  · rw [Catalog.index_remove, Index.records_leave, Keyed.find?_erase, if_pos rfl]

end Session

end NoteIndex
