import NoteIndex.Note.Encoded
import NoteIndex.Proofs.Json.Compact
import NoteIndex.Proofs.Time.Reading

/-!
# Notes read back from JSON

A note that is written as JSON is read back as the same note: a field that is left out comes back as
no value, and each of the others is found under the name it was written under. The timestamps have
to be instants, as those are that were read or taken from a clock.
-/

namespace NoteIndex

open Json (Plain)

def Block.timestamps (b : Block) : List Timestamp := b.createdAt.toList ++ b.completedAt.toList

def Note.timestamps (n : Note) : List Timestamp :=
  n.created :: n.modified :: n.blocks.flatMap Block.timestamps

namespace Timestamp

variable {t : Timestamp}

theorem IsInstant.timestamp?_text (h : t.IsInstant) :
    Json.timestamp? (.string t.text) = some t := by
  simp only [Json.timestamp?, Json.string?, Option.bind_some, h.parse?_text]

end Timestamp

namespace Block

theorem plain_toJson (b : Block) : b.toJson.Plain := by
  have hoptional {α : Type} {write : α → Json} (hwrite : ∀ a, (write a).Plain) (name : String)
      (o : Option α) : ∀ f ∈ optionalField name write o, f.2.Plain := by
    cases o with
    | none => exact fun f hf => absurd hf List.not_mem_nil
    | some a =>
      intro f hf
      rw [List.mem_singleton.mp hf]
      exact hwrite a
  refine .object fun f hf => ?_
  simp only [List.mem_append] at hf
  rcases hf with ((hf | hf) | hf) | hf
  · simp only [List.mem_cons, List.not_mem_nil, or_false] at hf
    rcases hf with rfl | rfl | rfl <;> exact .string _
  · exact hoptional .bool _ _ f hf
  · exact hoptional (fun t => .string _) _ _ f hf
  · exact hoptional (fun t => .string _) _ _ f hf

theorem ofJson?_toJson {b : Block} (h : ∀ t ∈ b.timestamps, t.IsInstant) :
    ofJson? b.toJson = some b := by
  obtain ⟨id, kind, content, checked, createdAt, completedAt⟩ := b
  have hcreated : ∀ t, createdAt = some t → Json.timestamp? (.string t.text) = some t := fun t ht =>
    (h t (by simp [timestamps, ht])).timestamp?_text
  have hcompleted : ∀ t, completedAt = some t → Json.timestamp? (.string t.text) = some t :=
    fun t ht => (h t (by simp [timestamps, ht])).timestamp?_text
  -- Each of the last three fields is there or is left out.
  cases checked <;> cases createdAt <;> cases completedAt <;>
    simp [ofJson?, toJson, optionalField, fieldNames, Json.recordEntries?, Json.entry,
      Json.Entry.required, Json.Entry.orElse, Json.string?, Json.bool?, Json.nullable?,
      BlockKind.ofJson?, BlockKind.ofName_name, hcreated, hcompleted]

end Block

namespace Note

theorem plain_toJson (n : Note) : n.toJson.Plain := by
  have hblocks : (Json.array (n.blocks.map Block.toJson)).Plain := by
    refine .array fun j hj => ?_
    obtain ⟨b, -, rfl⟩ := List.mem_map.mp hj
    exact b.plain_toJson
  refine .object fun f hf => ?_
  simp only [List.mem_cons, List.not_mem_nil, or_false] at hf
  rcases hf with rfl | rfl | rfl | rfl | rfl | rfl | rfl
  case inr.inr.inr.inr.inl => exact hblocks
  all_goals exact .string _

theorem ofJson?_toJson {n : Note} (h : ∀ t ∈ n.timestamps, t.IsInstant) :
    ofJson? n.toJson = some n := by
  have hcreated := (h n.created (by simp [timestamps])).timestamp?_text
  have hmodified := (h n.modified (by simp [timestamps])).timestamp?_text
  have hblocks : (n.blocks.map Block.toJson).mapM Block.ofJson? = some n.blocks := by
    refine Json.mapM_map_of_left_inverse fun b hb => Block.ofJson?_toJson fun t ht => h t ?_
    simp only [timestamps, List.mem_cons, List.mem_flatMap]
    exact .inr (.inr ⟨b, hb, ht⟩)
  simp [ofJson?, toJson, fieldNames, Json.recordEntries?, Json.entry, Json.Entry.required,
    Json.Entry.orElse, Json.string?, Json.array?, hcreated, hmodified, hblocks]

/-- What a note is written as is read as that note, whatever its texts and whichever fields of its
blocks have values, for instants of the years from 0000 to 9999 and far beyond. -/
theorem decode?_encode (n : Note) (h : ∀ t ∈ n.timestamps, t.IsInstant) :
    decode? n.encode = some n := by
  rw [decode?, encode, n.plain_toJson.parse?_compact, Option.bind_some]
  exact ofJson?_toJson h

/-- From the first second of year 0000 to a leap second at the end of year 9999. -/
theorem decode?_encode_leap :
    let first : Timestamp := ⟨-62167219200, 120000000⟩
    let last : Timestamp := ⟨253402300799, 1999999999⟩
    let n : Note := ⟨"a\"b", "Ünï\n\\", "", "\x01\x7f", [⟨"p", .other, "", none, none, none⟩,
      ⟨"q", .task, "\x7b", some false, some first, some last⟩], first, last⟩
    (∀ t ∈ n.timestamps, t.IsInstant) ∧ first.text = "0000-01-01T00:00:00.120Z" ∧
      last.text = "9999-12-31T23:59:60.999999999Z" ∧ decode? n.encode = some n := by
  intro first last n
  have htimes : ∀ t ∈ n.timestamps, t.IsInstant := by decide
  exact ⟨htimes, by decide, by decide, decode?_encode n htimes⟩

end Note

end NoteIndex
