import NoteIndex.Proofs.Catalog

/-!
# What an index takes from notes

The maps and the fingerprints come from the titles and texts of notes alone. In what order the notes
come, in which folders they lie, when they were written and whether their text is in blocks or in
one piece makes no difference. The records are another matter: they keep all of this.
-/

namespace NoteIndex

section Note

variable {m n : Note}

theorem Record.tags_ofNote_congr (h : m.text = n.text) : (ofNote m).tags = (ofNote n).tags := by
  simp only [ofNote, h]

theorem Record.linkKeys_ofNote_congr (h : m.text = n.text) :
    (ofNote m).linkKeys = (ofNote n).linkKeys := by
  simp only [linkKeys, ofNote, h]

theorem Record.titleKey_ofNote_congr (h : m.title = n.title) :
    (ofNote m).titleKey = (ofNote n).titleKey :=
  congrArg keyOfTitle h

theorem Note.fingerprint_congr (ht : m.title = n.title) (h : m.text = n.text) :
    m.fingerprint = n.fingerprint := by
  simp only [fingerprint, fingerprintBytes, ht, h]

end Note

/-- The notebooks have notes of the same identifiers, each with the same title and text in both. -/
structure Notebook.SameTexts (b₁ b₂ : Notebook) : Prop where
  ids : ∀ id, id ∈ b₁.ids ↔ id ∈ b₂.ids
  title : ∀ m ∈ b₁.notes, ∀ n ∈ b₂.notes, m.id = n.id → m.title = n.title
  text : ∀ m ∈ b₁.notes, ∀ n ∈ b₂.notes, m.id = n.id → m.text = n.text

namespace Notebook.SameTexts

variable {b₁ b₂ : Notebook}

/-- What follows from title and text is the same under every identifier. -/
theorem map_find? {γ : Type} (h : b₁.SameTexts b₂) (f : Note → γ)
    (hf : ∀ m n : Note, m.title = n.title → m.text = n.text → f m = f n) (id : String) :
    (b₁.find? id).map f = (b₂.find? id).map f := by
  have hids : (b₁.find? id).isSome = true ↔ (b₂.find? id).isSome = true := by
    rw [← Table.mem_keys_iff, ← Table.mem_keys_iff]
    exact h.ids id
  cases h₁ : b₁.find? id with
  | none =>
    have h₂ : b₂.find? id = none := by
      rw [← Option.not_isSome_iff_eq_none, ← hids, h₁]
      exact Bool.false_ne_true
    rw [h₂]
  | some m =>
    obtain ⟨n, h₂⟩ := Option.isSome_iff_exists.mp (hids.mp (by rw [h₁, Option.isSome_some]))
    obtain ⟨hm, hid₁⟩ := (b₁.find?_eq_some_iff id m).mp h₁
    obtain ⟨hn, hid₂⟩ := (b₂.find?_eq_some_iff id n).mp h₂
    have hid : m.id = n.id := hid₁.trans hid₂.symm
    rw [h₂]
    exact congrArg some (hf m n (h.title m hm n hn hid) (h.text m hm n hn hid))

end Notebook.SameTexts

namespace Index

variable {x y : Index} {b₁ b₂ : Notebook}

theorem Knows.alikeAt (hx : x.Knows b₁.find?) (hy : y.Knows b₂.find?) (h : b₁.SameTexts b₂)
    (id : String) : Records.AlikeAt x.records y.records id := by
  refine ⟨?_, ?_, ?_⟩ <;> rw [hx.records, hy.records, Option.map_map, Option.map_map]
  · exact h.map_find? _ (fun _ _ _ ht => Record.tags_ofNote_congr ht) id
  · exact h.map_find? _ (fun _ _ _ ht => Record.linkKeys_ofNote_congr ht) id
  · exact h.map_find? _ (fun _ _ ht _ => Record.titleKey_ofNote_congr ht) id

/-- This holds of indexes that have been brought up to date, too. -/
theorem Knows.snapshot_eq (hx : x.Knows b₁.find?) (hy : y.Knows b₂.find?) (h : b₁.SameTexts b₂) :
    x.snapshot = y.snapshot := by
  have hmaps := hy.exact.maps_of_alike (hx.alikeAt hy h)
  have htags := hx.exact.tags.unique hmaps.tags
  have hlinks := hx.exact.links.unique hmaps.links
  have hbacklinks := hx.exact.backlinks.unique hmaps.backlinks
  have hprints : x.fingerprints = y.fingerprints := by
    ext id : 1
    rw [hx.fingerprints, hy.fingerprints]
    exact h.map_find? _ (fun _ _ => Note.fingerprint_congr) id
  rw [snapshot, snapshot, htags, hlinks, hbacklinks, hprints]

end Index

namespace Catalog

/-- Catalogs built over notebooks that agree in the titles and texts of notes have the same
snapshot, whatever else is different. -/
theorem snapshot_of_titles_and_texts {b₁ b₂ : Notebook} {c₁ c₂ : Catalog} (h₁ : BuiltOver b₁ c₁)
    (h₂ : BuiltOver b₂ c₂) (h : b₁.SameTexts b₂) : c₁.snapshot = c₂.snapshot :=
  h₁.inStep.knows.snapshot_eq h₂.inStep.knows h

def inOnePiece : Notebook :=
  .ofNotes [⟨"a", "Alpha", "inbox", "[[Beta]]\n#tag", [], ⟨0, 0⟩, ⟨0, 0⟩⟩,
    ⟨"b", "Beta", "inbox", "[[Alpha]] [[beta]]", [], ⟨0, 0⟩, ⟨0, 0⟩⟩]

/-- The same notes later, elsewhere and the other way round, one of them in blocks. -/
def inBlocks : Notebook :=
  .ofNotes [⟨"b", "Beta", "archive", "[[Alpha]] [[beta]]", [], ⟨0, 0⟩, ⟨9, 5⟩⟩,
    ⟨"a", "Alpha", "archive", "#left #aside",
      [.plain "1" .heading "[[Beta]]", .task "2" "#tag" true], ⟨1, 0⟩, ⟨9, 0⟩⟩]

theorem snapshot_of_texts_in_blocks :
    let c₁ := ((Catalog.fresh none).init inOnePiece).1
    let c₂ := ((Catalog.fresh (some .broken)).init inBlocks).1
    BuiltOver inOnePiece c₁ ∧ BuiltOver inBlocks c₂ ∧ inOnePiece.SameTexts inBlocks ∧
      c₁.snapshot = c₂.snapshot := by
  intro c₁ c₂
  have h₁ : BuiltOver inOnePiece c₁ := .init _ rfl
  have h₂ : BuiltOver inBlocks c₂ := .init _ rfl
  have hsame : inOnePiece.SameTexts inBlocks := by
    refine ⟨fun id => ?_, by decide, by decide⟩
    change id ∈ ["a", "b"] ↔ id ∈ ["b", "a"]
    simp only [List.mem_cons, List.not_mem_nil, or_false]
    exact or_comm
  exact ⟨h₁, h₂, hsame, snapshot_of_titles_and_texts h₁ h₂ hsame⟩

end Catalog

end NoteIndex
