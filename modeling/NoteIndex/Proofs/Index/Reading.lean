import Mathlib.Data.List.Nodup
import NoteIndex.Index.Reading
import NoteIndex.Proofs.Index.Exact

/-!
# What look-ups answer

A look-up goes by one of the maps and passes over identifiers that have no record. In an exact index
there are none of these, so each look-up answers as going through all records would: with those that
have what is asked for, each once, in ascending order of identifiers.
-/

namespace NoteIndex.Index

theorem nodup_records (x : Index) : x.records.values.Nodup :=
  List.Nodup.of_map Record.id x.records.nodup_values

/-- Going through all records, `rs` are those with the property, in ascending order of identifiers
and each once. -/
structure Scan (x : Index) (p : Record → Prop) (rs : List Record) : Prop where
  mem_iff : ∀ r, r ∈ rs ↔ r ∈ x.records.values ∧ p r
  ascending : (rs.map Record.id).Pairwise (· < ·)

namespace Scan

variable {x : Index} {p q : Record → Prop} {rs : List Record}

theorem congr (h : x.Scan p rs) (hpq : ∀ r ∈ x.records.values, p r ↔ q r) : x.Scan q rs where
  mem_iff r := (h.mem_iff r).trans (and_congr_right (hpq r))
  ascending := h.ascending

theorem nodup (h : x.Scan p rs) : rs.Nodup := by
  refine List.Nodup.of_map Record.id (h.ascending.imp fun {a b} hab => ?_)
  rintro rfl
  exact String.lt_irrefl a hab

/-- But for the order, these are the records with the property in the order of the index. -/
theorem perm (h : x.Scan p rs) [DecidablePred p] : rs.Perm (x.records.values.filter (p ·)) := by
  refine (List.perm_ext_iff_of_nodup h.nodup (x.nodup_records.filter _)).mpr fun r => ?_
  rw [h.mem_iff, List.mem_filter, decide_eq_true_iff]

end Scan

section Lookup

variable {x : Index}

theorem mem_lookup_iff (ids : StringSet) (r : Record) :
    r ∈ x.lookup ids ↔ r ∈ x.records.values ∧ r.id ∈ ids := by
  rw [lookup, List.mem_filterMap, ← Keyed.find?_key_iff]
  constructor
  · rintro ⟨id, hid, hr⟩
    obtain rfl : r.id = id := Keyed.key_of_find? hr
    exact ⟨hr, hid⟩
  · rintro ⟨hr, hid⟩
    exact ⟨r.id, hid, hr⟩

variable {m : IdMap} {R : String → String → Prop} {p : Record → Prop} {k : String}

/-- No identifier is passed over under a key that lists just the notes with some property. -/
theorem ids_lookup_of_lists (hm : m.Lists R) (hR : ∀ id, R k id ↔ x.records.Has p id) :
    (x.lookup (m.ids k)).map Record.id = (m.ids k).toList := by
  refine x.records.keys_filterMap_find? fun id hid => ?_
  obtain ⟨r, hr, -⟩ := (hR id).mp ((hm.mem_iff k id).mp hid)
  exact ⟨r, hr⟩

theorem scan_lookup (hm : m.Lists R) (hR : ∀ id, R k id ↔ x.records.Has p id) :
    x.Scan p (x.lookup (m.ids k)) where
  mem_iff r := by
    rw [mem_lookup_iff, hm.mem_iff, hR]
    exact and_congr_right fun hr => Keyed.has_iff (Keyed.find?_key hr)
  ascending := by
    rw [ids_lookup_of_lists hm hR]
    exact (m.ids k).ascending

/-- A link to a note, as a property of the note that has it. -/
theorem linksTo_iff (x : Index) (a b : String) : x.records.LinksTo a b ↔
    x.records.Has (fun r => ∃ t, x.records.find? b = some t ∧ t.titleKey ∈ r.linkKeys) a := by
  constructor
  · rintro ⟨key, ⟨r, hr, hkey⟩, t, ht, rfl⟩
    exact ⟨r, hr, t, ht, hkey⟩
  · rintro ⟨r, hr, t, ht, hkey⟩
    exact ⟨t.titleKey, ⟨r, hr, hkey⟩, t, ht, rfl⟩

end Lookup

namespace Exact

variable {x : Index}

theorem scan_byTag (h : x.Exact) (s : String) :
    x.Scan (fun r => ∃ t, Tag.parse? s = some t ∧ t.text ∈ r.tags) (x.byTag s) := by
  rw [byTag]
  cases ht : Tag.parse? s with
  | none => exact ⟨fun r => by simp, .nil⟩
  | some t =>
    refine (scan_lookup h.tags fun _ => .rfl).congr fun r _ => ?_
    simp

theorem scan_backlinksTo (h : x.Exact) (id : String) :
    x.Scan (fun r => ∃ t, x.records.find? id = some t ∧ t.titleKey ∈ r.linkKeys)
      (x.backlinksTo id) :=
  scan_lookup h.backlinks fun a => linksTo_iff x a id

theorem mem_backlinksTo_iff (h : x.Exact) {b : Record} (hb : x.records.find? b.id = some b)
    (r : Record) : r ∈ x.backlinksTo b.id ↔
      x.records.find? r.id = some r ∧ ∃ l ∈ r.links, l.key = b.titleKey := by
  rw [(h.scan_backlinksTo b.id).mem_iff, hb, Keyed.find?_key_iff]
  refine and_congr_right fun _ => ?_
  simp [Record.linkKeys]

theorem scan_linkingTo (h : x.Exact) (s : String) :
    x.Scan (fun r => Record.keyOfTitle s ∈ r.linkKeys) (x.linkingTo s) :=
  scan_lookup h.links fun _ => .rfl

theorem count_tagged (h : x.Exact) (t : String) :
    (x.records.values.filter (t ∈ ·.tags)).length = (x.tags.ids t).size := by
  have hscan : x.Scan (t ∈ ·.tags) (x.lookup (x.tags.ids t)) := scan_lookup h.tags fun _ => .rfl
  have hids := ids_lookup_of_lists (k := t) h.tags fun _ => .rfl
  rw [← hscan.perm.length_eq, ← List.length_map Record.id, hids]
  rfl

/-- A tag is listed with the number of notes that carry it, if there are any. -/
theorem mem_allTags_iff (h : x.Exact) (t : String) (n : Nat) :
    (t, n) ∈ x.allTags ↔ n ≠ 0 ∧ (x.records.values.filter (t ∈ ·.tags)).length = n := by
  rw [allTags, List.mem_map, h.count_tagged]
  constructor
  · rintro ⟨⟨t, s⟩, hs, ⟨⟩⟩
    rw [SortedMap.mem_entries_iff] at hs
    have hids : x.tags.ids t = s := by rw [IdMap.ids, hs, Option.getD_some]
    refine ⟨fun hzero => h.tags.noEmptySet t s hs ?_, congrArg _ hids⟩
    exact (StringSet.isEmpty_iff s).mp (List.isEmpty_iff_length_eq_zero.mpr hzero)
  · rintro ⟨hne, rfl⟩
    cases hs : x.tags.find? t with
    | none =>
      rw [IdMap.ids, hs] at hne
      exact absurd rfl hne
    | some s =>
      refine ⟨(t, s), (SortedMap.mem_entries_iff _ _ _).mpr hs, ?_⟩
      rw [IdMap.ids, hs, Option.getD_some]

/-- No identifier in the maps is passed over. -/
theorem ids_lookup (h : x.Exact) (k : String) :
    (x.lookup (x.tags.ids k)).map Record.id = (x.tags.ids k).toList ∧
      (x.lookup (x.links.ids k)).map Record.id = (x.links.ids k).toList ∧
      (x.lookup (x.backlinks.ids k)).map Record.id = (x.backlinks.ids k).toList :=
  ⟨ids_lookup_of_lists h.tags fun _ => .rfl, ids_lookup_of_lists h.links fun _ => .rfl,
    ids_lookup_of_lists h.backlinks fun a => linksTo_iff x a k⟩

end Exact

end NoteIndex.Index
