import NoteIndex.Proofs.Collection.Table
import NoteIndex.Record

/-!
# The values of records

Numbers in a note are read as finite ones, and counts are numbers, so no property of the record of a
note has in it the value that is no number.
-/

namespace NoteIndex

/-- No number in the value is the one that is no number. -/
inductive Value.Proper : Value → Prop where
  | null : Proper .null
  | bool (b : Bool) : Proper (.bool b)
  | number {n : Number} : n ≠ .notANumber → Proper (.number n)
  | string (s : String) : Proper (.string s)
  | list {items : List Value} : (∀ v ∈ items, Proper v) → Proper (.list items)
  | map {entries : List (String × Value)} : (∀ e ∈ entries, Proper e.2) → Proper (.map entries)

namespace Value

theorem Proper.ne {v : Value} (h : v.Proper) : v ≠ .number .notANumber := by
  rintro rfl
  cases h with
  | number hne => exact hne rfl

theorem proper_strings (ss : List String) : (list (ss.map .string)).Proper :=
  .list (List.forall_mem_map.mpr fun s _ => .string s)

theorem proper_ofNat (n : Nat) : (ofNat n).Proper := by
  refine .number fun h => ?_
  rw [Number.ofNat, Number.nearest] at h
  split at h <;> cases h

theorem Proper.get? {v w : Value} {segment : String} (h : v.Proper)
    (hw : v.get? segment = some w) : w.Proper := by
  cases h with
  | map hentries => exact hentries _ (Table.mem_of_lookup hw)
  | list hitems =>
    obtain ⟨i, -, hi⟩ := Option.bind_eq_some_iff.mp hw
    exact hitems w (List.mem_of_getElem? hi)
  | _ => cases hw

theorem Proper.path? {v w : Value} {segments : List String} (h : v.Proper)
    (hw : v.path? segments = some w) : w.Proper := by
  induction segments generalizing v with
  | nil =>
    cases hw
    exact h
  | cons s r ih =>
    obtain ⟨u, hu, hw⟩ := Option.bind_eq_some_iff.mp hw
    exact ih (h.get? hu) hw

end Value

namespace Frontmatter

theorem proper_plain (raw : List Char) : (readValue.plain raw).Proper := by
  rw [readValue.plain]
  split
  · exact .string _
  · split
    · exact .bool true
    · split
      · exact .bool false
      · split
        · rename_i n hn
          exact .number (Number.ne_notANumber_of_parseText? hn)
        · exact .string _

theorem proper_readValue (raw : List Char) : (readValue raw).Proper := by
  rw [readValue.eq_def]
  split
  · split
    · refine .list fun v hv => ?_
      obtain ⟨item, -, hitem⟩ := List.mem_filterMap.mp hv
      split at hitem
      · cases hitem
      · cases hitem
        exact .string _
    · exact proper_plain _
  · exact proper_plain _

theorem proper_readLine? {line : List Char} {e : String × Value} (h : readLine? line = some e) :
    e.2.Proper := by
  cases line with
  | nil => cases h
  | cons c r =>
    rw [readLine?] at h
    split at h
    · split at h
      · cases h
        exact proper_readValue _
      · cases h
    · cases h

theorem proper_split (text : List Char) : ∀ e ∈ (split text).1.entries, e.2.Proper := by
  intro e he
  rw [split] at he
  split at he
  · obtain ⟨line, -, hline⟩ := List.mem_filterMap.mp (Table.mem_of_mem_ofList he)
    exact proper_readLine? hline
  · cases he

end Frontmatter

namespace Record

theorem proper_toValue (n : Note) : (ofNote n).toValue.Proper := by
  have hlinks : (Value.list ((ofNote n).links.map linkValue)).Proper := by
    refine .list (List.forall_mem_map.mpr fun l _ => .map ?_)
    simp only [List.forall_mem_cons, List.not_mem_nil, false_imp_iff, implies_true, and_true]
    exact ⟨.string _, .string _⟩
  refine .map ?_
  simp only [List.forall_mem_cons, List.not_mem_nil, false_imp_iff, implies_true, and_true]
  exact ⟨.string _, .string _, .string _, .map (Frontmatter.proper_split n.text),
    Value.proper_strings _, hlinks, .string _, .string _, Value.proper_ofNat _,
    Value.proper_ofNat _⟩

theorem proper_property? {n : Note} {name : String} {v : Value}
    (h : (ofNote n).property? name = some v) : v.Proper := by
  rw [property?] at h
  split at h
  · cases h
    exact .string _
  split at h
  · cases h
    exact .string _
  split at h
  · cases h
    exact Value.proper_strings _
  split at h
  · cases h
    exact .string _
  split at h
  · cases h
    exact .string _
  split at h
  · cases h
    exact Value.proper_ofNat _
  split at h
  · cases h
    exact Value.proper_ofNat _
  split at h
  · rename_i hfind
    cases h
    exact Frontmatter.proper_split n.text _ (Table.mem_of_lookup hfind)
  · exact (proper_toValue n).path? h

end Record

end NoteIndex
