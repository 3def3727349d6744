import NoteIndex.Proofs.Index.Reading
import NoteIndex.Proofs.Link
import NoteIndex.Proofs.Session.Basic

/-!
# Which notes link to a note

The backlinks of a note are the notes with a link whose key is that of the title. A note that names
the title between double brackets is one of them, if no brackets opened before are left open there:
these would take in the title with its brackets, as part of another target.
-/

namespace NoteIndex

namespace Session

variable {s : Session}

theorem find?_record
    (h : ∀ id, s.catalog.index.records.find? id = (s.book.find? id).map Record.ofNote)
    {n : Note} (hn : n ∈ s.book.notes) :
    s.catalog.index.records.find? (Record.ofNote n).id = some (Record.ofNote n) := by
  rw [h, Record.id_ofNote, Keyed.find?_key hn, Option.map_some]

/-- In terms of the notes, where the records are those of the notes. -/
theorem mem_backlinks_iff (hexact : s.catalog.index.Exact)
    (h : ∀ id, s.catalog.index.records.find? id = (s.book.find? id).map Record.ofNote)
    {b : Note} (hb : b ∈ s.book.notes) (r : Record) :
    r ∈ s.catalog.index.backlinksTo b.id ↔ ∃ a ∈ s.book.notes, r = Record.ofNote a ∧
      ∃ l ∈ r.links, l.key = (Record.ofNote b).titleKey := by
  refine (hexact.mem_backlinksTo_iff (find?_record h hb) r).trans ⟨?_, ?_⟩
  · rintro ⟨hr, hlink⟩
    rw [h] at hr
    obtain ⟨a, ha, rfl⟩ := Option.map_eq_some_iff.mp hr
    exact ⟨a, ((Keyed.find?_eq_some_iff _ _ _).mp ha).1, rfl, hlink⟩
  · rintro ⟨a, ha, rfl, hlink⟩
    exact ⟨find?_record h ha, hlink⟩

/-- When the index has the records of the notes as they are, the backlinks of a note are the notes
with a link to its title. Among them is each note with the title in brackets, unless it has brackets
open before. -/
theorem backlinks_of_title (store : Option Store) (rs : List Request) {b : Note}
    (hstep : ∀ id, ((start store).after rs).catalog.index.records.find? id =
      (((start store).after rs).book.find? id).map Record.ofNote)
    (hb : b ∈ ((start store).after rs).book.notes) :
    let s := (start store).after rs
    (∀ r, r ∈ s.catalog.index.backlinksTo b.id ↔ ∃ a ∈ s.book.notes, r = Record.ofNote a ∧
      ∃ l ∈ r.links, l.key = (Record.ofNote b).titleKey) ∧
    ∀ a ∈ s.book.notes, ∀ before after,
      (Frontmatter.split a.text).2 =
        before ++ '[' :: '[' :: (b.title.toList ++ ']' :: ']' :: after) →
      Text.trim b.title.toList ≠ [] → ']' ∉ b.title.toList → '|' ∉ b.title.toList →
      Link.NoneOpen before → Record.ofNote a ∈ s.catalog.index.backlinksTo b.id := by
  intro s
  have hexact : s.catalog.index.Exact := exact_after Index.exact_empty rs
  have hiff := mem_backlinks_iff hexact hstep hb
  refine ⟨hiff, fun a ha before after hbody hblank hclosed hbar hopen => ?_⟩
  have hlinks : (Record.ofNote a).links = Link.extract (Frontmatter.split a.text).2 := rfl
  refine (hiff _).mpr ⟨a, ha, rfl, ?_⟩
  rw [hlinks, hbody]
  exact Link.exists_link_of_title hclosed hbar hblank hopen after

/-- Brackets that have been closed before do no harm. -/
theorem backlinks_of_title_past_links :
    let a := Note.page "a" "Alpha" "---\nkind: log\n---\n[[Other|x]] [y] [[ Beta ]] [[beTA]]"
    let b := Note.page "b" "beTA" ""
    let s := (start none).after [.put a, .put b, .init]
    (∀ id, s.catalog.index.records.find? id = (s.book.find? id).map Record.ofNote) ∧
      b ∈ s.book.notes ∧ Record.ofNote a ∈ s.catalog.index.backlinksTo b.id := by
  intro a b s
  have hbuilt : Catalog.BuiltOver s.book s.catalog :=
    builtOver_init ((start none).after [.put a, .put b]) rfl
  have hb : b ∈ s.book.notes := List.mem_cons_of_mem a (List.mem_singleton.mpr rfl)
  have hmem := (backlinks_of_title none [.put a, .put b, .init] hbuilt.inStep.knows.records hb).2
    a (List.mem_cons_self ..) "[[Other|x]] [y] [[ Beta ]] ".toList [] (by decide)
    (by decide) (by decide) (by decide) (by decide)
  exact ⟨hbuilt.inStep.knows.records, hb, hmem⟩

/-- Brackets left open take in the title: the target is `draft [[Beta`. -/
theorem backlink_lost_past_open_brackets :
    let a := Note.page "a" "Alpha" "[[draft [[Beta]]"
    let b := Note.page "b" "Beta" ""
    let s := (start none).after [.put a, .put b, .init]
    s.catalog.index.InStep s.book ∧ a ∈ s.book.notes ∧ b ∈ s.book.notes ∧
      (Text.trim b.title.toList ≠ [] ∧ '[' ∉ b.title.toList ∧ ']' ∉ b.title.toList ∧
        '|' ∉ b.title.toList) ∧
      (Frontmatter.split a.text).2 = "[[draft ".toList ++ ("[[" ++ b.title ++ "]]").toList ∧
      ∀ r ∈ s.catalog.index.backlinksTo b.id, r.id ≠ a.id := by
  intro a b s
  have hbuilt : Catalog.BuiltOver s.book s.catalog :=
    builtOver_init ((start none).after [.put a, .put b]) rfl
  have hstep := hbuilt.inStep
  have ha : a ∈ s.book.notes := List.mem_cons_self ..
  have hb : b ∈ s.book.notes := List.mem_cons_of_mem a (List.mem_singleton.mpr rfl)
  have hother : ∀ l ∈ (Record.ofNote a).links,
      l.key.toList ≠ (Record.ofNote b).titleKey.toList := by
    decide
  refine ⟨hstep, ha, hb, by decide, by decide, fun r hr hid => ?_⟩
  obtain ⟨n, hn, rfl, l, hl, hkey⟩ :=
    (mem_backlinks_iff hstep.knows.exact hstep.knows.records hb r).mp hr
  obtain rfl : n = a := by
    have hfind := Keyed.find?_key hn
    rw [show n.id = a.id from hid, Keyed.find?_key ha] at hfind
    exact (Option.some_inj.mp hfind).symm
  exact hother l hl (congrArg String.toList hkey)

end Session

end NoteIndex
