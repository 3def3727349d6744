import NoteIndex.Proofs.Json.Compact
import NoteIndex.Proofs.Tag
import NoteIndex.Proofs.Text.Blank
import NoteIndex.Tag.Encoded

/-!
# Which texts give tags that read back

Whatever it is read from, a tag is not empty, has no blank at either end and is in lower case. It is
read back from its own text, and from JSON, unless it begins with a hash sign. This happens for just
the texts that have blanks between two hash signs at their head: the blanks go after the hash signs
in front of them are gone, and nothing looks at what they leave in front.
-/

namespace NoteIndex

namespace Text

variable {c : Char} {cs : List Char}

theorem trimStart_append_cons {gap : List Char} (hgap : ∀ d ∈ gap, isBlank d = true)
    (hc : isBlank c = false) (r : List Char) : trimStart (gap ++ c :: r) = c :: r := by
  rw [trimStart, List.dropWhile_append_of_pos hgap]
  exact List.dropWhile_cons_of_neg (Bool.eq_false_iff.mp hc)

/-- Trimming at the end stops at what is not blank. -/
theorem exists_trimEnd_append (hc : isBlank c = false) (front r : List Char) :
    ∃ rest, trimEnd (front ++ c :: r) = front ++ c :: rest := by
  obtain ⟨gap, hcs, hgap⟩ := append_trimEnd (front ++ c :: r)
  have hnot (d : List Char) : gap ≠ d ++ c :: r := by
    rintro rfl
    rw [hgap c (by simp)] at hc
    cases hc
  obtain ⟨d, hd, hr⟩ | ⟨d, -, hr⟩ := List.append_eq_append_iff.mp hcs
  · cases d with
    | nil => exact absurd hr.symm (hnot [])
    | cons a rest =>
      obtain ⟨rfl, -⟩ := List.cons_eq_cons.mp hr
      exact ⟨rest, hd⟩
  · exact absurd hr (hnot d)

/-- Trimming brings a character to the front just if there are only blanks before it. -/
theorem head_trim_iff (hc : isBlank c = false) :
    (trim cs).head? = some c ↔
      ∃ gap rest, cs = gap ++ c :: rest ∧ ∀ d ∈ gap, isBlank d = true := by
  constructor
  · intro h
    obtain ⟨before, after, hcs, hbefore, -⟩ := append_trim_append cs
    obtain ⟨rest, hrest⟩ := List.head?_eq_some_iff.mp h
    refine ⟨before, rest ++ after, ?_, hbefore⟩
    rw [hcs, hrest]
    rfl
  · rintro ⟨gap, rest, rfl, hgap⟩
    obtain ⟨r, hr⟩ := exists_trimEnd_append hc [] rest
    rw [trim, trimStart_append_cons hgap hc]
    rw [List.nil_append] at hr
    rw [hr]
    rfl

end Text

namespace Tag

variable {cs : List Char} {s : String} {t : Tag}

/-- At the head of the text there are hash signs, blanks, and another hash sign. -/
def HashBehindBlank (cs : List Char) : Prop :=
  ∃ before hashes gap rest, cs = before ++ hashes ++ gap ++ '#' :: rest ∧
    (∀ c ∈ before, Text.isBlank c = true) ∧ (hashes ≠ [] ∧ ∀ c ∈ hashes, c = '#') ∧
    (gap ≠ [] ∧ ∀ c ∈ gap, Text.isBlank c = true)

theorem isBlank_hash : Text.isBlank '#' = false := by decide

theorem head_lower_hash_iff : (Text.lower cs).head? = some '#' ↔ cs.head? = some '#' := by
  constructor
  · intro h
    by_contra hne
    exact Text.head_lower_ne_hash hne h
  · intro h
    obtain ⟨r, rfl⟩ := List.head?_eq_some_iff.mp h
    rfl

/-- What hash signs leave when they are taken off trimmed text. -/
theorem hashBehindBlank_of_head
    (h : (Text.trim ((Text.trim cs).dropWhile (· == '#'))).head? = some '#') :
    HashBehindBlank cs := by
  obtain ⟨before, after, hcs, hbefore, -⟩ := Text.append_trim_append cs
  obtain ⟨gap, rest, hdrop, hgap⟩ := (Text.head_trim_iff isBlank_hash).mp h
  have hcut : Text.trim cs = (Text.trim cs).takeWhile (· == '#') ++ (gap ++ '#' :: rest) := by
    rw [← hdrop]
    exact List.takeWhile_append_dropWhile.symm
  have hgapne : gap ≠ [] := by
    rintro rfl
    have hnot := List.head?_dropWhile_not (· == '#') (Text.trim cs)
    rw [hdrop] at hnot
    cases hnot
  have hhashes : (Text.trim cs).takeWhile (· == '#') ≠ [] := by
    intro hnil
    rw [hnil, List.nil_append] at hcut
    obtain ⟨d, r, rfl⟩ := List.exists_cons_of_ne_nil hgapne
    have hfirst := (Text.trimmed_trim cs).first d (by rw [hcut]; rfl)
    rw [hgap d List.mem_cons_self] at hfirst
    cases hfirst
  refine ⟨before, (Text.trim cs).takeWhile (· == '#'), gap, rest ++ after, ?_, hbefore,
    ⟨hhashes, fun c hc => ?_⟩, hgapne, hgap⟩
  · conv_lhs => rw [hcs, hcut]
    simp only [List.append_assoc, List.cons_append]
  · exact eq_of_beq (List.mem_takeWhile_imp (p := (· == '#')) hc)

theorem head_of_hashBehindBlank (h : HashBehindBlank cs) :
    (Text.trim ((Text.trim cs).dropWhile (· == '#'))).head? = some '#' := by
  obtain ⟨before, hashes, gap, rest, rfl, hbefore, ⟨hhashes, hall⟩, hgapne, hgap⟩ := h
  obtain ⟨r, htrim⟩ : ∃ r, Text.trim (before ++ hashes ++ gap ++ '#' :: rest) =
      hashes ++ (gap ++ '#' :: r) := by
    obtain ⟨c, more, rfl⟩ := List.exists_cons_of_ne_nil hhashes
    obtain rfl : c = '#' := hall c List.mem_cons_self
    have hstart := Text.trimStart_append_cons hbefore isBlank_hash (more ++ gap ++ '#' :: rest)
    obtain ⟨r, hend⟩ := Text.exists_trimEnd_append isBlank_hash ('#' :: more ++ gap) rest
    refine ⟨r, ?_⟩
    simp only [List.append_assoc, List.cons_append] at hstart hend ⊢
    rw [Text.trim, hstart, hend]
  have hdrop : (hashes ++ (gap ++ '#' :: r)).dropWhile (· == '#') = gap ++ '#' :: r := by
    obtain ⟨d, blanks, rfl⟩ := List.exists_cons_of_ne_nil hgapne
    have hd : d ≠ '#' := by
      rintro rfl
      exact Bool.noConfusion (isBlank_hash.symm.trans (hgap '#' List.mem_cons_self))
    rw [List.dropWhile_append_of_pos fun c hc => beq_iff_eq.mpr (hall c hc)]
    exact List.dropWhile_cons_of_neg (by simpa using hd)
  rw [htrim, hdrop]
  exact (Text.head_trim_iff isBlank_hash).mpr ⟨gap, r, rfl, hgap⟩

theorem head_normalize_iff : (normalize cs).head? = some '#' ↔ HashBehindBlank cs :=
  head_lower_hash_iff.trans ⟨hashBehindBlank_of_head, head_of_hashBehindBlank⟩

@[simp] theorem ofJson?_toJson (t : Tag) : ofJson? (toJson t) = parse? t.text :=
  Option.bind_some t.text parse?

theorem decode?_encode_eq (t : Tag) : decode? (encode t) = parse? t.text := by
  have hplain : (toJson t).Plain := .string t.text
  rw [decode?, encode, hplain.parse?_compact, Option.bind_some, ofJson?_toJson]

/-- A tag is not empty, trimmed and in lower case. It does not begin with a hash sign, and is read
back from its text and from JSON, just if the text it comes from has no blanks between hash signs at
its head. -/
theorem normal_form (h : parse? s = some t) :
    (t.text ≠ "" ∧ Text.Trimmed t.text.toList ∧ Text.lowercase t.text = t.text) ∧
      (t.text.toList.head? ≠ some '#' ↔ ¬ HashBehindBlank s.toList) ∧
      (parse? t.text = some t ↔ ¬ HashBehindBlank s.toList) ∧
      (decode? (encode t) = some t ↔ ¬ HashBehindBlank s.toList) := by
  obtain ⟨hne, htext⟩ := (ofChars?_eq_some_iff _ _).mp h
  have hhead : t.text.toList.head? ≠ some '#' ↔ ¬ HashBehindBlank s.toList := by
    rw [htext]
    exact not_congr head_normalize_iff
  have hread : parse? t.text = some t ↔ ¬ HashBehindBlank s.toList :=
    (parse?_text_iff h).trans hhead
  refine ⟨⟨?_, ?_, ?_⟩, hhead, hread, ?_⟩
  · intro hempty
    rw [hempty] at htext
    exact hne htext.symm
  · rw [htext]
    exact trimmed_normalize _
  · rw [Text.lowercase, htext, Text.lower_of_settled (settled_normalize _), ← htext,
      String.ofList_toList]
  · rw [decode?_encode_eq]
    exact hread

/-- Hash signs that are followed by blanks do no harm, nor do those further on. -/
theorem normal_form_inner_hash :
    let t : Tag := ⟨"οδος #1"⟩
    parse? " ##  ΟΔΟΣ #1 " = some t ∧ t.text.toList.head? ≠ some '#' ∧
      parse? t.text = some t ∧ decode? (encode t) = some t := by
  intro t
  have h : parse? " ##  ΟΔΟΣ #1 " = some t := by decide +kernel
  have hne : t.text.toList.head? ≠ some '#' := by decide
  obtain ⟨-, hhead, hread, hjson⟩ := normal_form h
  have hfree := hhead.mp hne
  exact ⟨h, hne, hread.mpr hfree, hjson.mpr hfree⟩

/-- The text `# #a` gives the tag `#a`, which is read back as `a`. -/
theorem hash_behind_blank_stays :
    parse? "# #a" = some ⟨"#a"⟩ ∧ "#a".toList.head? = some '#' ∧
      parse? "#a" = some ⟨"a"⟩ ∧ decode? (encode ⟨"#a"⟩) = some ⟨"a"⟩ := by
  rw [decode?_encode_eq]
  decide

end Tag

end NoteIndex
