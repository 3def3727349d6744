import NoteIndex.Proofs.Link
import NoteIndex.Proofs.Text.Lowercase

/-!
# Links written out

A link from a body has a trimmed target, which is not empty and has neither a bar nor a closing
bracket in it, and a trimmed label. That is all it takes for its text to be read as that link again.
Texts of links may stand right next to each other, or with other text between them that has no
opening bracket: each is found where it begins.
-/

namespace NoteIndex.Link

/-! ## Links from a body -/

/-- What makes the text of a link read as that link. -/
structure WellFormed (l : Link) : Prop where
  target_ne : l.target ≠ ""
  target_bar : '|' ∉ l.target.toList
  target_closed : ']' ∉ l.target.toList
  target_trimmed : Text.Trimmed l.target.toList
  label_closed : ']' ∉ l.label.toList
  label_trimmed : Text.Trimmed l.label.toList

theorem bar_not_mem_of_splitOnce {cs : List Char} (h : Text.splitOnce '|' cs = none) : '|' ∉ cs := by
  intro hmem
  obtain ⟨before, after, rfl, hbefore⟩ := List.eq_append_cons_of_mem hmem
  rw [Text.splitOnce_of_not_mem hbefore] at h
  cases h

/-- The target and the label are pieces of the inside, trimmed. -/
theorem exists_of_ofInside? {inner : List Char} {l : Link} (h : ofInside? inner = some l) :
    ∃ target label, l = ⟨String.ofList (Text.trim target), String.ofList (Text.trim label)⟩ ∧
      Text.trim target ≠ [] ∧ '|' ∉ target ∧ target ⊆ inner ∧ label ⊆ inner := by
  rw [ofInside?] at h
  split at h
  rename_i target label hparts
  split at h
  · cases h
  rename_i hne
  cases h
  rw [List.isEmpty_iff] at hne
  split at hparts
  · rename_i before after hsplit
    cases hparts
    obtain ⟨hbar, rfl⟩ := Text.splitOnce_eq_some hsplit
    exact ⟨before, after, rfl, hne, hbar, by simp, by simp⟩
  · rename_i hsplit
    cases hparts
    exact ⟨inner, inner, rfl, hne, bar_not_mem_of_splitOnce hsplit, by simp, by simp⟩

theorem wellFormed_of_ofInside? {inner : List Char} {l : Link} (hclosed : ']' ∉ inner)
    (h : ofInside? inner = some l) : l.WellFormed := by
  obtain ⟨target, label, rfl, hne, hbar, htarget, hlabel⟩ := exists_of_ofInside? h
  have hsub (cs : List Char) : Text.trim cs ⊆ cs := (Text.trim_sublist cs).subset
  constructor
  · intro hempty
    apply hne
    simpa using congrArg String.toList hempty
  · simpa using fun hmem => hbar (hsub target hmem)
  · simpa using fun hmem => hclosed (htarget (hsub target hmem))
  · simpa using Text.trimmed_trim target
  · simpa using fun hmem => hclosed (hlabel (hsub label hmem))
  · simpa using Text.trimmed_trim label

theorem closed_of_mem_insidesFrom {inner body : List Char} {skip : Nat}
    (h : inner ∈ insidesFrom skip body) : ']' ∉ inner := by
  induction body generalizing skip with
  | nil => cases h
  | cons c r ih =>
    cases skip with
    | succ k => exact ih h
    | zero =>
      cases hinside : inside? (c :: r) with
      | none =>
        rw [insidesFrom_of_none hinside] at h
        exact ih h
      | some found =>
        rw [insidesFrom_of_some hinside] at h
        rcases List.mem_cons.mp h with rfl | h
        · exact ((inside?_eq_some_iff _ _).mp hinside).2.1
        · exact ih h

theorem wellFormed_of_mem_extract {body : List Char} {l : Link} (h : l ∈ extract body) :
    l.WellFormed := by
  obtain ⟨inner, hinner, hl⟩ := List.mem_filterMap.mp h
  exact wellFormed_of_ofInside? (closed_of_mem_insidesFrom hinner) hl

/-! ## The text of a link -/

/-- What stands between the brackets in the text of a link. -/
def written (l : Link) : List Char :=
  if l.label = l.target then l.target.toList else l.target.toList ++ '|' :: l.label.toList

theorem toList_text (l : Link) : l.text.toList = '[' :: '[' :: (l.written ++ [']', ']']) := by
  rw [text, written]
  split <;> simp

namespace WellFormed

variable {l : Link} (h : l.WellFormed)
include h

theorem written_ne : l.written ≠ [] := by
  have hne : l.target.toList ≠ [] := by simpa using h.target_ne
  rw [written]
  split <;> simp [hne]

theorem written_closed : ']' ∉ l.written := by
  rw [written]
  split <;> simp [h.target_closed, h.label_closed]

/-- A label that is the target needs no bar, and any other comes after the first one. -/
theorem ofInside?_written : ofInside? l.written = some l := by
  have hne : l.target.toList ≠ [] := by simpa using h.target_ne
  rw [written]
  split
  · rename_i hlabel
    have hblank : Text.trim l.target.toList ≠ [] := by rwa [h.target_trimmed.trim_eq]
    rw [ofInside?_of_no_bar h.target_bar hblank, h.target_trimmed.trim_eq, String.ofList_toList]
    cases l
    cases hlabel
    rfl
  · rw [ofInside?, Text.splitOnce_of_not_mem h.target_bar]
    simp only [h.target_trimmed.trim_eq, h.label_trimmed.trim_eq, List.isEmpty_iff, hne,
      if_false, String.ofList_toList]

end WellFormed

/-! ## Finding the texts again -/

theorem insidesFrom_eq_drop (skip : Nat) (cs : List Char) :
    insidesFrom skip cs = insidesFrom 0 (cs.drop skip) := by
  induction cs generalizing skip with
  | nil => cases skip <;> rfl
  | cons c r ih =>
    cases skip with
    | zero => rfl
    | succ k => exact ih k

/-- No link begins but with an opening bracket. -/
theorem insidesFrom_append {gap : List Char} (h : '[' ∉ gap) (r : List Char) :
    insidesFrom 0 (gap ++ r) = insidesFrom 0 r := by
  induction gap with
  | nil => rfl
  | cons c gap ih =>
    rw [List.mem_cons, not_or] at h
    have hnone : inside? (c :: (gap ++ r)) = none := by
      rw [Option.eq_none_iff_forall_ne_some]
      intro inner hinner
      obtain ⟨-, -, after, hcs⟩ := (inside?_eq_some_iff _ _).mp hinner
      exact h.1 (List.cons.inj hcs).1.symm
    rw [List.cons_append, insidesFrom_of_none hnone, ih h.2]

/-- After the text of a link the search goes on behind its brackets. -/
theorem insidesFrom_text {l : Link} (h : l.WellFormed) (r : List Char) :
    insidesFrom 0 (l.text.toList ++ r) = l.written :: insidesFrom 0 r := by
  have htext : l.text.toList ++ r = '[' :: '[' :: (l.written ++ ']' :: ']' :: r) := by
    simp [toList_text]
  have hinside : inside? (l.text.toList ++ r) = some l.written :=
    (inside?_eq_some_iff _ _).mpr ⟨h.written_ne, h.written_closed, r, htext⟩
  have hrest : ('[' :: (l.written ++ ']' :: ']' :: r)).drop (l.written.length + 3) = r := by
    rw [List.drop_succ_cons, List.drop_append]
    simp
  rw [htext] at hinside ⊢
  rw [insidesFrom_of_some hinside, insidesFrom_eq_drop, hrest]

theorem extract_text {gap : List Char} (hgap : '[' ∉ gap) {l : Link} (h : l.WellFormed)
    (r : List Char) : extract (gap ++ (l.text.toList ++ r)) = l :: extract r := by
  rw [extract, insidesFrom_append hgap, insidesFrom_text h,
    List.filterMap_cons_some h.ofInside?_written, extract]

theorem extract_texts {parts : List (List Char × Link)}
    (h : ∀ p ∈ parts, '[' ∉ p.1 ∧ p.2.WellFormed) {after : List Char} (hafter : '[' ∉ after) :
    extract (parts.flatMap (fun p => p.1 ++ p.2.text.toList) ++ after) = parts.map Prod.snd := by
  induction parts with
  | nil =>
    have hnone := insidesFrom_append hafter []
    rw [List.append_nil] at hnone
    rw [List.flatMap_nil, List.nil_append, extract, hnone]
    rfl
  | cons p parts ih =>
    obtain ⟨hp, hparts⟩ := List.forall_mem_cons.mp h
    rw [List.flatMap_cons, List.append_assoc, List.append_assoc, extract_text hp.1 hp.2, ih hparts,
      List.map_cons]

/-- Every link from a body has a trimmed target, neither empty nor with a bar or a closing bracket
in it, and a trimmed label. Links from whatever bodies, written one after another with any text
before, between and after them that opens no bracket, are found again in their order, and no others
are. -/
theorem extract_written :
    (∀ body, ∀ l ∈ extract body, l.target ≠ "" ∧ '|' ∉ l.target.toList ∧ ']' ∉ l.target.toList ∧
      Text.trimmed l.target = l.target ∧ Text.trimmed l.label = l.label) ∧
    ∀ (parts : List (List Char × Link)) (after : List Char),
      (∀ p ∈ parts, '[' ∉ p.1 ∧ ∃ body, p.2 ∈ extract body) → '[' ∉ after →
      extract (parts.flatMap (fun p => p.1 ++ p.2.text.toList) ++ after) = parts.map Prod.snd := by
  constructor
  · intro body l hl
    have h := wellFormed_of_mem_extract hl
    have htrimmed {s : String} (hs : Text.Trimmed s.toList) : Text.trimmed s = s := by
      rw [Text.trimmed, hs.trim_eq, String.ofList_toList]
    exact ⟨h.target_ne, h.target_bar, h.target_closed, htrimmed h.target_trimmed,
      htrimmed h.label_trimmed⟩
  · intro parts after hparts hafter
    refine extract_texts (fun p hp => ?_) hafter
    obtain ⟨hgap, body, hbody⟩ := hparts p hp
    exact ⟨hgap, wellFormed_of_mem_extract hbody⟩

/-- A target that begins with a bracket and goes over a line end, a label with a bar in it, one that
is empty and one that is the target; two of the links with nothing between them. -/
theorem extract_written_adjacent :
    let body := "[[ [a\nb | c|d ]]x[[e|]] [[f|f]]".toList
    let links : List Link := [⟨"[a\nb", "c|d"⟩, ⟨"e", ""⟩, ⟨"f", "f"⟩]
    let parts := [("] see ".toList, links[0]), ([], links[1]), (" and ".toList, links[2])]
    let text := "] see [[[a\nb|c|d]][[e|]] and [[f]] .".toList
    (∀ p ∈ parts, '[' ∉ p.1 ∧ p.2 ∈ extract body) ∧ '[' ∉ " .".toList ∧
      text = parts.flatMap (fun p => p.1 ++ p.2.text.toList) ++ " .".toList ∧
      extract text = links := by
  intro body links parts text
  have hparts : ∀ p ∈ parts, '[' ∉ p.1 ∧ p.2 ∈ extract body := by decide
  have hafter : '[' ∉ " .".toList := by decide
  have htext : text = parts.flatMap (fun p => p.1 ++ p.2.text.toList) ++ " .".toList := by
    decide
  refine ⟨hparts, hafter, htext, ?_⟩
  rw [htext]
  exact extract_written.2 parts _ (fun p hp => ⟨(hparts p hp).1, body, (hparts p hp).2⟩) hafter

end NoteIndex.Link
