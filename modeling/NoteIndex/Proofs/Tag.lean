import NoteIndex.Proofs.Text.Lowercase
import NoteIndex.Record

/-!
# The normal form of tags

The text of a tag is trimmed and in lower case. It need not be in normal form all the same: the
blanks after the hash signs in front are taken off last, and what they set free may be another hash
sign. A tag is read back from its own text just if it does not begin with one.
-/

namespace NoteIndex

namespace Tag

theorem trimmed_normalize (cs : List Char) : Text.Trimmed (normalize cs) :=
  (Text.trimmed_trim _).lower

theorem settled_normalize (cs : List Char) : ∀ c ∈ normalize cs, Text.Settled c :=
  Text.settled_lower _

/-- Of trimmed text in lower case the second normal form only takes off hash signs. -/
theorem normalize_of_settled {cs : List Char} (ht : Text.Trimmed cs)
    (hs : ∀ c ∈ cs, Text.Settled c) : normalize cs = Text.trim (cs.dropWhile (· == '#')) := by
  rw [normalize, ht.trim_eq]
  refine Text.lower_of_settled fun c hc => hs c ?_
  exact (List.dropWhile_sublist _).subset ((Text.trim_sublist _).subset hc)

theorem normalize_normalize_iff (cs : List Char) :
    normalize (normalize cs) = normalize cs ↔ (normalize cs).head? ≠ some '#' := by
  have ht := trimmed_normalize cs
  rw [normalize_of_settled ht (settled_normalize cs)]
  cases hn : normalize cs with
  | nil => simp
  | cons c r =>
    rw [List.head?_cons, Ne, Option.some_inj]
    by_cases hc : c = '#'
    · subst hc
      have hshort : (Text.trim (('#' :: r).dropWhile (· == '#'))).length ≤ r.length :=
        (Text.trim_sublist _).length_le.trans (List.length_dropWhile_le (· == '#') r)
      refine iff_of_false (fun he => ?_) fun hne => hne rfl
      rw [he, List.length_cons] at hshort
      omega
    · have hdrop : (c :: r).dropWhile (· == '#') = c :: r :=
        List.dropWhile_cons_of_neg (by simpa using hc)
      rw [hdrop, ← hn, ht.trim_eq]
      exact iff_of_true rfl hc

/-- Without blanks inside, taking the hash signs off front brings no others to light. -/
theorem normalize_of_not_blank {cs : List Char} (h : ∀ c ∈ cs, Text.isBlank c = false) :
    normalize cs = Text.lower (cs.dropWhile (· == '#')) := by
  rw [normalize, Text.trim_of_not_blank h, Text.trim_of_not_blank fun c hc => ?_]
  exact h c ((List.dropWhile_sublist _).subset hc)

theorem head_normalize_of_not_blank {cs : List Char} (h : ∀ c ∈ cs, Text.isBlank c = false) :
    (normalize cs).head? ≠ some '#' := by
  rw [normalize_of_not_blank h]
  refine Text.head_lower_ne_hash fun hhead => ?_
  have hnot := List.head?_dropWhile_not (· == '#') cs
  rw [hhead] at hnot
  cases hnot

theorem ofChars?_eq_some_iff (cs : List Char) (t : Tag) :
    ofChars? cs = some t ↔ normalize cs ≠ [] ∧ t.text.toList = normalize cs := by
  obtain ⟨text⟩ := t
  rw [ofChars?]
  by_cases hn : normalize cs = []
  · simp [hn]
  · simp only [List.isEmpty_iff, hn, if_false, Option.some_inj, Tag.mk.injEq, ne_eq,
      not_false_eq_true, true_and]
    constructor
    · rintro rfl
      exact String.toList_ofList
    · intro h
      rw [← h, String.ofList_toList]

/-- A tag is read back from its text just if that does not begin with a hash sign. -/
theorem parse?_text_iff {s : String} {t : Tag} (h : parse? s = some t) :
    parse? t.text = some t ↔ t.text.toList.head? ≠ some '#' := by
  obtain ⟨hne, htext⟩ := (ofChars?_eq_some_iff _ _).mp h
  rw [parse?, ofChars?_eq_some_iff, htext, ← normalize_normalize_iff]
  constructor
  · exact fun ⟨_, he⟩ => he.symm
  · intro he
    rw [he]
    exact ⟨hne, rfl⟩

theorem parse?_of_mem_ofEntry {v : Option Value} {t : Tag} (h : t ∈ ofEntry v) :
    ∃ s, parse? s = some t := by
  rcases v with - | v
  · exact absurd h List.not_mem_nil
  · cases v with
    | null => exact absurd h List.not_mem_nil
    | list items =>
      rw [ofEntry] at h
      obtain ⟨item, -, hitem⟩ := List.mem_filterMap.mp h
      exact ⟨item.text, hitem⟩
    | _ =>
      rw [ofEntry, Option.mem_toList] at h
      · exact ⟨_, h⟩
      · nofun
      · nofun

theorem parse?_of_mem_inline {body : List Char} {t : Tag} (h : t ∈ inline body) :
    ∃ s, parse? s = some t := by
  obtain ⟨word, -, hword⟩ := List.mem_filterMap.mp h
  refine ⟨String.ofList word, ?_⟩
  rw [parse?, String.toList_ofList]
  exact hword

end Tag

/-- The tags of a record have been read as such. -/
theorem Record.parse?_of_mem_tags {n : Note} {t : String} (h : t ∈ (ofNote n).tags) :
    ∃ s, Tag.parse? s = some ⟨t⟩ := by
  obtain ⟨⟨text⟩, htag, rfl⟩ := List.mem_map.mp ((StringSet.mem_ofList _ _).mp h)
  rcases List.mem_append.mp htag with hentry | hinline
  · exact Tag.parse?_of_mem_ofEntry hentry
  · exact Tag.parse?_of_mem_inline hinline

/-- A tag of a record is read back just if it does not begin with a hash sign. -/
theorem Record.parse?_tag_iff {n : Note} {t : String} (h : t ∈ (ofNote n).tags) :
    Tag.parse? t = some ⟨t⟩ ↔ t.toList.head? ≠ some '#' := by
  obtain ⟨s, hs⟩ := parse?_of_mem_tags h
  exact Tag.parse?_text_iff hs

end NoteIndex
