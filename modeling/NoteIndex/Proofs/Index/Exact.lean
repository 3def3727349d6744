import NoteIndex.Proofs.Index.Maps

/-!
# Indexes that are exact

An index is exact if its maps are what its records give. Records leave no choice: two exact indexes
with the same records and fingerprints are one. Entering a note and taking one out keep an index
exact, whatever the note was before and however its links and its title meet those of the others.
-/

namespace NoteIndex

namespace Records

def Tagged (rs : Records) (tag id : String) : Prop := rs.Has (fun r => tag ∈ r.tags) id

/-- The note has a link of that key. -/
def LinksBy (rs : Records) (key id : String) : Prop := rs.Has (fun r => key ∈ r.linkKeys) id

def Titled (rs : Records) (key id : String) : Prop := rs.Has (fun r => r.titleKey = key) id

/-- Note `a` has a link whose key is that of the title of note `b`. -/
def LinksTo (rs : Records) (a b : String) : Prop := ∃ key, rs.LinksBy key a ∧ rs.Titled key b

theorem tagged_add (rs : Records) (r : Record) (tag id : String) :
    Tagged (rs.add r) tag id ↔ (tag ∈ r.tags ∧ id = r.id) ∨ (rs.Tagged tag id ∧ id ≠ r.id) :=
  Keyed.has_add r

theorem linksBy_add (rs : Records) (r : Record) (key id : String) :
    LinksBy (rs.add r) key id ↔ (key ∈ r.linkKeys ∧ id = r.id) ∨ (rs.LinksBy key id ∧ id ≠ r.id) :=
  Keyed.has_add r

theorem titled_add (rs : Records) (r : Record) (key id : String) :
    Titled (rs.add r) key id ↔ (r.titleKey = key ∧ id = r.id) ∨ (rs.Titled key id ∧ id ≠ r.id) :=
  Keyed.has_add r

/-- Two tables of records hold under an identifier what gives the maps the same: records with the
same tags, link keys and key of the title, or none. -/
structure AlikeAt (rs qs : Records) (id : String) : Prop where
  tags : (rs.find? id).map Record.tags = (qs.find? id).map Record.tags
  linkKeys : (rs.find? id).map Record.linkKeys = (qs.find? id).map Record.linkKeys
  titleKey : (rs.find? id).map Record.titleKey = (qs.find? id).map Record.titleKey

namespace AlikeAt

variable {rs qs : Records} {id a b : String}

theorem of_eq (h : rs.find? id = qs.find? id) : AlikeAt rs qs id :=
  ⟨congrArg _ h, congrArg _ h, congrArg _ h⟩

theorem tagged (h : AlikeAt rs qs id) (tag : String) : rs.Tagged tag id ↔ qs.Tagged tag id :=
  Keyed.has_congr Record.tags h.tags (tag ∈ ·)

theorem linksBy (h : AlikeAt rs qs id) (key : String) : rs.LinksBy key id ↔ qs.LinksBy key id :=
  Keyed.has_congr Record.linkKeys h.linkKeys (key ∈ ·)

theorem titled (h : AlikeAt rs qs id) (key : String) : rs.Titled key id ↔ qs.Titled key id :=
  Keyed.has_congr Record.titleKey h.titleKey (· = key)

/-- Whether there is a link hangs on the two notes at its ends. -/
theorem linksTo (ha : AlikeAt rs qs a) (hb : AlikeAt rs qs b) :
    rs.LinksTo a b ↔ qs.LinksTo a b :=
  exists_congr fun key => and_congr (ha.linksBy key) (hb.titled key)

end AlikeAt

end Records

namespace Index

open Records

/-- The maps list what the records give, no more and no less. -/
structure Exact (x : Index) : Prop extends
    Maps x x.records.Tagged x.records.LinksBy x.records.Titled x.records.LinksTo where
  fingerprints : ∀ id, (x.fingerprints.find? id).isSome = (x.records.find? id).isSome

theorem exact_empty : Exact ∅ where
  toMaps := by
    refine Maps.empty.congr (fun k id => ?_) (fun k id => ?_) (fun k id => ?_) fun a b => ?_
    · exact (iff_false_intro Keyed.not_has_empty).symm
    · exact (iff_false_intro Keyed.not_has_empty).symm
    · exact (iff_false_intro Keyed.not_has_empty).symm
    · refine (iff_false_intro ?_).symm
      rintro ⟨key, hkey, -⟩
      exact Keyed.not_has_empty hkey
  fingerprints _ := rfl

/-- The maps have no say of their own. -/
theorem Exact.eq {x y : Index} (hx : x.Exact) (hy : y.Exact) (hr : x.records = y.records)
    (hf : x.fingerprints = y.fingerprints) : x = y := by
  have hy' : y.Maps x.records.Tagged x.records.LinksBy x.records.Titled x.records.LinksTo := by
    rw [hr]
    exact hy.toMaps
  have ht := hx.tags.unique hy'.tags
  have hl := hx.links.unique hy'.links
  have hn := hx.titles.unique hy'.titles
  have hb := hx.backlinks.unique hy'.backlinks
  have ho := hx.outbound.unique hy'.outbound
  cases x
  cases y
  congr

/-- Alike records give the same maps. -/
theorem Exact.maps_of_alike {y : Index} (hy : y.Exact) {rs : Records}
    (h : ∀ id, AlikeAt rs y.records id) :
    y.Maps rs.Tagged rs.LinksBy rs.Titled rs.LinksTo :=
  hy.toMaps.congr (fun t id => ((h id).tagged t).symm) (fun k id => ((h id).linksBy k).symm)
    (fun k id => ((h id).titled k).symm) fun a b => ((h a).linksTo (h b)).symm

/-! ## Entering a note -/

theorem records_enter (x : Index) (r : Record) (fingerprint : String) :
    (x.enter r fingerprint).records = x.records.add r := by
  have hout := connectOut_keeps records fun _ _ _ => rfl
  have hin := connectIn_keeps records fun _ _ _ => rfl
  have hforget : (x.forget (x.records.find? r.id)).records = x.records := by
    cases x.records.find? r.id <;> rfl
  simp only [enter]
  split <;> simp only [hout, hin, detachOutbound, retitle, detachIncoming, contribute, hforget]

theorem fingerprints_enter (x : Index) (r : Record) (fingerprint : String) :
    (x.enter r fingerprint).fingerprints = x.fingerprints.insert r.id fingerprint := by
  have hout := connectOut_keeps fingerprints fun _ _ _ => rfl
  have hin := connectIn_keeps fingerprints fun _ _ _ => rfl
  have hforget : (x.forget (x.records.find? r.id)).fingerprints = x.fingerprints := by
    cases x.records.find? r.id <;> rfl
  simp only [enter]
  split <;> simp only [hout, hin, detachOutbound, retitle, detachIncoming, contribute, hforget]

section Enter

variable {x : Index}

theorem Exact.forget (h : x.Exact) (id : String) :
    (x.forget (x.records.find? id)).Maps (fun t i => x.records.Tagged t i ∧ i ≠ id)
      (fun k i => x.records.LinksBy k i ∧ i ≠ id) x.records.Titled x.records.LinksTo := by
  cases ho : x.records.find? id with
  | none =>
    exact h.toMaps.congr (fun _ _ => Keyed.has_and_ne_of_none ho)
      (fun _ _ => Keyed.has_and_ne_of_none ho) (fun _ _ => .rfl) fun _ _ => .rfl
  | some o =>
    have hid : o.id = id := Keyed.key_of_find? ho
    refine (h.toMaps.withdraw o).congr (fun t i => ?_) (fun k i => ?_) (fun _ _ => .rfl)
      fun _ _ => .rfl
    · rw [hid]
      exact Keyed.has_and_not_iff ho
    · rw [hid]
      exact Keyed.has_and_not_iff ho

/-- With the new tags and link keys in place and the old links gone. -/
theorem Exact.replace (h : x.Exact) (r : Record) :
    (((x.forget (x.records.find? r.id)).contribute r).detachOutbound r.id).Maps
      (Tagged (x.records.add r)) (LinksBy (x.records.add r)) x.records.Titled
      (fun a b => x.records.LinksTo a b ∧ a ≠ r.id) :=
  (((h.forget r.id).contribute r).detachOutbound r.id).congr
    (fun t i => (tagged_add x.records r t i).symm) (fun k i => (linksBy_add x.records r k i).symm)
    (fun _ _ => .rfl) fun _ _ => .rfl

theorem titled_retitle (rs : Records) (r : Record) (key id : String) :
    (key = r.titleKey ∧ id = r.id) ∨ (rs.Titled key id ∧
      ¬ (some key = (rs.find? r.id).map Record.titleKey ∧ id = r.id)) ↔
    Titled (rs.add r) key id := by
  rw [titled_add, eq_comm (a := key)]
  refine or_congr_right ?_
  cases ho : rs.find? r.id with
  | none =>
    have hne : rs.Titled key id ↔ rs.Titled key id ∧ id ≠ r.id := Keyed.has_and_ne_of_none ho
    simpa using hne
  | some o =>
    rw [Option.map_some, Option.some.injEq, eq_comm (a := key)]
    exact Keyed.has_and_not_iff ho

/-- The links of a note of a new title: its own, those to it, and those between others. -/
theorem linksTo_renamed (rs : Records) (r : Record) (a b : String) :
    (b = r.id ∧ LinksBy (rs.add r) r.titleKey a) ∨
      ((a = r.id ∧ ∃ key ∈ r.linkKeys.toList, Titled (rs.add r) key b) ∨
        ((rs.LinksTo a b ∧ a ≠ r.id) ∧ b ≠ r.id)) ↔
    LinksTo (rs.add r) a b := by
  constructor
  · rintro (⟨rfl, hl⟩ | ⟨rfl, key, hkey, hn⟩ | ⟨⟨⟨key, hl, hn⟩, ha⟩, hb⟩)
    · exact ⟨r.titleKey, hl, (titled_add ..).mpr (.inl ⟨rfl, rfl⟩)⟩
    · exact ⟨key, (linksBy_add ..).mpr (.inl ⟨hkey, rfl⟩), hn⟩
    · exact ⟨key, (linksBy_add ..).mpr (.inr ⟨hl, ha⟩), (titled_add ..).mpr (.inr ⟨hn, hb⟩)⟩
  · rintro ⟨key, hl, hn⟩
    rcases (titled_add ..).mp hn with ⟨rfl, hb⟩ | ⟨hn', hb⟩
    · exact .inl ⟨hb, hl⟩
    · rcases (linksBy_add ..).mp hl with ⟨hkey, ha⟩ | ⟨hl', ha⟩
      · exact .inr (.inl ⟨ha, key, hkey, hn⟩)
      · exact .inr (.inr ⟨⟨⟨key, hl', hn'⟩, ha⟩, hb⟩)

/-- The links of a note that keeps its title: its own, and those of others. -/
theorem linksTo_same_title (rs : Records) (r : Record)
    (hn : ∀ key id, rs.Titled key id ↔ Titled (rs.add r) key id) (a b : String) :
    (a = r.id ∧ ∃ key ∈ r.linkKeys.toList, Titled (rs.add r) key b) ∨
      (rs.LinksTo a b ∧ a ≠ r.id) ↔
    LinksTo (rs.add r) a b := by
  constructor
  · rintro (⟨rfl, key, hkey, hb⟩ | ⟨⟨key, hl, hb⟩, ha⟩)
    · exact ⟨key, (linksBy_add ..).mpr (.inl ⟨hkey, rfl⟩), hb⟩
    · exact ⟨key, (linksBy_add ..).mpr (.inr ⟨hl, ha⟩), (hn key b).mp hb⟩
  · rintro ⟨key, hl, hb⟩
    rcases (linksBy_add ..).mp hl with ⟨hkey, ha⟩ | ⟨hl', ha⟩
    · exact .inl ⟨ha, key, hkey, hb⟩
    · exact .inr ⟨⟨key, hl', (hn key b).mpr hb⟩, ha⟩

theorem Exact.enter_maps (h : x.Exact) (r : Record) (fingerprint : String) :
    (x.enter r fingerprint).Maps (Tagged (x.records.add r)) (LinksBy (x.records.add r))
      (Titled (x.records.add r)) (LinksTo (x.records.add r)) := by
  have hreplace := h.replace r
  simp only [enter]
  split
  · rename_i hrenamed
    have htitled := (hreplace.retitle r.id ((x.records.find? r.id).map Record.titleKey)
      r.titleKey).congr (fun _ _ => .rfl) (fun _ _ => .rfl) (titled_retitle x.records r)
      fun _ _ => .rfl
    have hconnect := (htitled.connectOut r.id r.linkKeys.toList).connectIn r.id r.titleKey
    have hedges := hconnect.congr_edges (linksTo_renamed x.records r)
    exact ⟨hedges.tags, hedges.links, hedges.titles, hedges.backlinks, hedges.outbound⟩
  · rename_i hsame
    obtain ⟨o, ho, ht⟩ := Option.map_eq_some_iff.mp (Classical.not_not.mp hsame)
    have hn : ∀ key id, x.records.Titled key id ↔ Titled (x.records.add r) key id := by
      intro key id
      exact (Keyed.has_add_of_iff ho (by rw [ht])).symm
    have htitled := hreplace.congr (fun _ _ => .rfl) (fun _ _ => .rfl) hn fun _ _ => .rfl
    have hconnect := htitled.connectOut r.id r.linkKeys.toList
    have hedges := hconnect.congr_edges (linksTo_same_title x.records r hn)
    exact ⟨hedges.tags, hedges.links, hedges.titles, hedges.backlinks, hedges.outbound⟩

theorem Exact.enter (h : x.Exact) (r : Record) (fingerprint : String) :
    (x.enter r fingerprint).Exact where
  toMaps := by
    rw [records_enter]
    exact h.enter_maps r fingerprint
  fingerprints id := by
    rw [records_enter, fingerprints_enter, SortedMap.find?_insert, Keyed.find?_add]
    split
    · rfl
    · exact h.fingerprints id

end Enter

/-! ## Taking a note out -/

theorem leave_of_none {x : Index} {id : String} (h : x.records.find? id = none) :
    x.leave id = x := by
  simp only [leave, h]

theorem records_leave (x : Index) (id : String) : (x.leave id).records = x.records.erase id := by
  cases h : x.records.find? id with
  | none => rw [leave_of_none h, Keyed.erase_of_none h]
  | some r => simp only [leave, h]; rfl

theorem linksTo_erase (rs : Records) (id a b : String) :
    (rs.LinksTo a b ∧ a ≠ id) ∧ b ≠ id ↔ LinksTo (rs.erase id) a b := by
  constructor
  · rintro ⟨⟨⟨key, hl, hn⟩, ha⟩, hb⟩
    exact ⟨key, (Keyed.has_erase id).mpr ⟨hl, ha⟩, (Keyed.has_erase id).mpr ⟨hn, hb⟩⟩
  · rintro ⟨key, hl, hn⟩
    obtain ⟨hl', ha⟩ := (Keyed.has_erase id).mp hl
    obtain ⟨hn', hb⟩ := (Keyed.has_erase id).mp hn
    exact ⟨⟨⟨key, hl', hn'⟩, ha⟩, hb⟩

theorem Exact.leave_maps {x : Index} (h : x.Exact) {id : String} {r : Record}
    (hr : x.records.find? id = some r) :
    (x.leave id).Maps (Tagged (x.records.erase id)) (LinksBy (x.records.erase id))
      (Titled (x.records.erase id)) (LinksTo (x.records.erase id)) := by
  have hid : r.id = id := Keyed.key_of_find? hr
  have hgone {p : Record → Prop} (i : String) :
      x.records.Has p i ∧ ¬ (p r ∧ i = id) ↔ (x.records.erase id).Has p i :=
    (Keyed.has_and_not_iff hr).trans (Keyed.has_erase id).symm
  have hmaps := ((h.toMaps.withdraw r).detachOutbound id).detachIncoming id
  have hedges := hmaps.congr_edges (linksTo_erase x.records id)
  simp only [leave, hr]
  refine ⟨hedges.tags.congr fun t i => ?_, hedges.links.congr fun k i => ?_,
    (hedges.titles.removeId r.titleKey id).congr fun k i => ?_, hedges.backlinks, hedges.outbound⟩
  · rw [hid]
    exact hgone i
  · rw [hid]
    exact hgone i
  · rw [eq_comm (a := k)]
    exact hgone i

/-- A note without a record has no fingerprint either, so there is none left behind. -/
theorem Exact.find?_fingerprints_leave {x : Index} (h : x.Exact) (id j : String) :
    (x.leave id).fingerprints.find? j = if j = id then none else x.fingerprints.find? j := by
  cases hr : x.records.find? id with
  | none =>
    have hf : x.fingerprints.find? id = none := by
      have hsome := h.fingerprints id
      rwa [hr, Option.isSome_none, Option.isSome_eq_false_iff, Option.isNone_iff_eq_none] at hsome
    rw [leave_of_none hr]
    split
    · rename_i hj
      rw [hj, hf]
    · rfl
  | some r =>
    have hf : (x.leave id).fingerprints = SortedMap.erase x.fingerprints id := by
      simp only [Index.leave, hr]
      rfl
    rw [hf, SortedMap.find?_erase]

theorem Exact.leave {x : Index} (h : x.Exact) (id : String) : (x.leave id).Exact where
  toMaps := by
    rw [records_leave]
    cases hr : x.records.find? id with
    | none =>
      rw [leave_of_none hr, Keyed.erase_of_none hr]
      exact h.toMaps
    | some r => exact h.leave_maps hr
  fingerprints j := by
    rw [h.find?_fingerprints_leave, records_leave, Keyed.find?_erase]
    split
    · rfl
    · exact h.fingerprints j

end Index

end NoteIndex
