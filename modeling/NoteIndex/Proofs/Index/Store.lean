import NoteIndex.Index.Store
import NoteIndex.Proofs.Json.Compact

/-!
# What a store gives back

A store in order gives back the snapshot that was saved last, whatever it held before: each map is
read from its own row, and its text is that of an object of lists of strings, or of strings.
-/

namespace NoteIndex.Store

/-- Reading and writing succeed. -/
structure InOrder (s : Store) : Prop where
  readable : s.readable = true
  writable : s.writable = true

theorem inOrder_empty : empty.InOrder := ⟨rfl, rfl⟩

theorem inOrder_save_iff {s : Store} (x : Snapshot) : (s.save x).InOrder ↔ s.InOrder := by
  rw [Store.save]
  split
  · exact ⟨fun h => ⟨h.readable, h.writable⟩, fun h => ⟨h.readable, h.writable⟩⟩
  · exact Iff.rfl

theorem InOrder.save {s : Store} (h : s.InOrder) (x : Snapshot) : (s.save x).InOrder :=
  (inOrder_save_iff x).mpr h

theorem load_empty : empty.load = .ok none := rfl

/-! ## The text of a map -/

theorem stringSet?_strings (s : StringSet) : stringSet? (Json.strings s.toList) = some s := by
  have hitems : (s.toList.map Json.string).mapM Json.string? = some s.toList :=
    Json.mapM_map_of_left_inverse fun _ _ => rfl
  simp only [stringSet?, Json.strings, Json.array?, Option.bind_eq_bind, Option.bind_some, hitems,
    Option.pure_def, StringSet.ofList_toList]

theorem mapOf?_object {α : Type} (write : α → Json) (read : Json → Option α)
    (h : ∀ a, read (write a) = some a) (m : SortedMap α) :
    mapOf? read (.object (m.entries.map fun e => (e.1, write e.2))) = some m := by
  have hfields : (m.entries.map fun e => (e.1, write e.2)).mapM
      (fun f => (read f.2).map fun v => (f.1, v)) = some m.entries :=
    Json.mapM_map_of_left_inverse fun e _ => by rw [h]; rfl
  rw [mapOf?, hfields, Option.map_some, SortedMap.ofList_entries]

theorem decodeIds?_idMapJson (m : IdMap) : decodeIds? (idMapJson m).compact = some m := by
  have hplain : (idMapJson m).Plain := by
    refine .object fun f hf => ?_
    obtain ⟨e, -, rfl⟩ := List.mem_map.mp hf
    exact Json.plain_strings e.2.toList
  rw [decodeIds?, hplain.parse?_compact, Option.bind_some]
  exact mapOf?_object (fun s => Json.strings s.toList) stringSet? stringSet?_strings m

theorem decodeStrings?_stringMapJson (m : SortedMap String) :
    decodeStrings? (stringMapJson m).compact = some m := by
  have hplain : (stringMapJson m).Plain := by
    refine .object fun f hf => ?_
    obtain ⟨e, -, rfl⟩ := List.mem_map.mp hf
    exact .string e.2
  rw [decodeStrings?, hplain.parse?_compact, Option.bind_some]
  exact mapOf?_object Json.string Json.string? (fun _ => rfl) m

/-! ## Saving and loading -/

theorem load_save {s : Store} (h : s.InOrder) (x : Snapshot) : (s.save x).load = .ok (some x) := by
  have hrows : tagRow ≠ linkRow ∧ tagRow ≠ backlinkRow ∧ tagRow ≠ fingerprintRow ∧
      linkRow ≠ backlinkRow ∧ linkRow ≠ fingerprintRow ∧ backlinkRow ≠ fingerprintRow := by
    decide
  obtain ⟨htl, htb, htf, hlb, hlf, hbf⟩ := hrows
  have hread : ¬ ¬ (s.save x).readable = true := not_not_intro (h.save x).readable
  rw [load, if_neg hread, Store.save, if_pos h.writable]
  simp only [SortedMap.find?_insert, htl, htb, htf, hlb, hlf, hbf, if_true, if_false,
    decodeIds?_idMapJson, decodeStrings?_stringMapJson]

end NoteIndex.Store
