import Mathlib.Data.List.Nodup
import NoteIndex.Disk.Markdown
import NoteIndex.Proofs.Disk.Names

/-!
# Paths of markdown files

Each markdown file below a folder is met once, and its path can be told from those of the others,
also where the ending of the file's name is left out. A name may have dots and blanks in it, and a
folder may be named as a markdown file is.
-/

namespace NoteIndex

theorem stem?_eq_some_iff (name stem : String) :
    stem? name = some stem ↔ stem ≠ "" ∧ name = stem ++ ".md" := by
  rw [stem?]
  constructor
  · intro h
    split at h
    · rename_i c r hname
      obtain rfl := Option.some.inj h
      have hlist : name.toList = (c :: r).reverse ++ ['.', 'm', 'd'] := by
        rw [← List.reverse_reverse name.toList, hname]
        simp
      refine ⟨fun hempty => ?_, String.toList_inj.mp ?_⟩
      · simpa using congrArg String.toList hempty
      · rw [hlist, String.toList_append, String.toList_ofList]
        rfl
    · cases h
  · rintro ⟨hne, rfl⟩
    have hlist : (stem ++ ".md").toList.reverse = 'd' :: 'm' :: '.' :: stem.toList.reverse := by
      rw [String.toList_append, List.reverse_append]
      rfl
    obtain ⟨c, r, hstem⟩ : ∃ c r, stem.toList.reverse = c :: r :=
      List.exists_cons_of_ne_nil (by simpa using hne)
    simp only [hlist, hstem]
    rw [← hstem, List.reverse_reverse, String.ofList_toList]

/-! ## Paths as text -/

namespace Path

variable {p q : Path}

theorem toList_text (p : Path) : p.text.toList = ['/'].intercalate (p.map String.toList) :=
  String.toList_intercalate

/-- Names without slashes can be read off a path again. -/
theorem text_inj (hp : p.WellNamed) (hq : q.WellNamed) (hpne : p ≠ []) (hqne : q ≠ []) :
    p.text = q.text ↔ p = q := by
  refine ⟨fun h => ?_, congrArg text⟩
  have hsplit {r : Path} (hr : r.WellNamed) (hne : r ≠ []) :
      Text.splitOn '/' r.text.toList = r.map String.toList := by
    rw [toList_text]
    exact Text.splitOn_intercalate (by simpa using hne) (List.forall_mem_map.mpr hr)
  have hmap : p.map String.toList = q.map String.toList := by
    rw [← hsplit hp hpne, ← hsplit hq hqne, h]
  exact List.map_injective_iff.mpr (fun _ _ => String.toList_inj.mp) hmap

/-- The path of a markdown file: it ends in that file's name. -/
structure Markdown (p : Path) : Prop where
  wellNamed : p.WellNamed
  ends : ∃ folder stem, p = folder ++ [stem ++ ".md"] ∧ stem ≠ ""

theorem Markdown.ne_nil (h : p.Markdown) : p ≠ [] := by
  obtain ⟨folder, stem, rfl, -⟩ := h.ends
  simp

theorem markdown_singleton {name stem : String} (hname : '/' ∉ name.toList)
    (h : stem? name = some stem) : Path.Markdown [name] := by
  obtain ⟨hne, rfl⟩ := (stem?_eq_some_iff name stem).mp h
  exact ⟨List.forall_mem_singleton.mpr hname, [], stem, rfl, hne⟩

theorem Markdown.cons {name : String} (hname : '/' ∉ name.toList) (h : p.Markdown) :
    Path.Markdown (name :: p) := by
  obtain ⟨folder, stem, rfl, hne⟩ := h.ends
  exact ⟨List.forall_mem_cons.mpr ⟨hname, h.wellNamed⟩, name :: folder, stem, rfl, hne⟩

end Path

/-! ## What is found below a folder -/

namespace Disk

variable {d : Disk} {depth : Nat} {above : List Path} {folder : Path}

/-- The markdown files that an entry of a folder stands for or has below it. -/
def markdownOf (d : Disk) (depth : Nat) (above : List Path) (folder : Path) (e : String × Node) :
    List (Path × File) :=
  if isHidden e.1 then []
  else
    match d.leadsTo folder e.1 e.2 with
    | (none, _) => []
    | (some p, isLink) =>
      match Node.at? p d.root with
      | some (.file f) => if (stem? e.1).isSome then [([e.1], f)] else []
      | some (.folder _) =>
        if isLink && (folder :: above).contains p then []
        else (d.markdownBelow depth (folder :: above) p).map fun x => (e.1 :: x.1, x.2)
      | _ => []

/-- The entries of a folder; there are none where it is missing. -/
def entriesAt (d : Disk) (folder : Path) : List (String × Node) :=
  (Node.at? folder d.root).elim [] Node.entries

theorem markdownBelow_succ : d.markdownBelow (depth + 1) above folder =
    (d.entriesAt folder).flatMap (d.markdownOf depth above folder) := by
  rw [markdownBelow, entriesAt]
  cases Node.at? folder d.root with
  | none => rfl
  | some n => rfl

theorem ascending_entriesAt (hd : d.root.WellNamed) :
    (d.entriesAt folder).Pairwise fun a b => a.1 < b.1 := by
  rw [entriesAt]
  cases h : Node.at? folder d.root with
  | none => exact .nil
  | some n => exact (hd.of_at? h).ascending_entries

theorem names_entriesAt (hd : d.root.WellNamed) : ∀ e ∈ d.entriesAt folder, '/' ∉ e.1.toList := by
  rw [entriesAt]
  cases h : Node.at? folder d.root with
  | none => exact fun e he => absurd he List.not_mem_nil
  | some n => exact (hd.of_at? h).names_entries

/-- All there can be of an entry: nothing, a file, or what is below a folder. -/
theorem markdownOf_cases (d : Disk) (depth : Nat) (above : List Path) (folder : Path)
    (e : String × Node) :
    d.markdownOf depth above folder e = [] ∨
    (∃ f stem, stem? e.1 = some stem ∧ d.markdownOf depth above folder e = [([e.1], f)]) ∨
    ∃ p, d.markdownOf depth above folder e =
      (d.markdownBelow depth (folder :: above) p).map fun x => (e.1 :: x.1, x.2) := by
  rw [markdownOf]
  split
  · exact .inl rfl
  · split
    · exact .inl rfl
    · rename_i p isLink _
      split
      · rename_i f _
        split
        · rename_i hstem
          obtain ⟨stem, hstem⟩ := Option.isSome_iff_exists.mp hstem
          exact .inr (.inl ⟨f, stem, hstem, rfl⟩)
        · exact .inl rfl
      · split
        · exact .inl rfl
        · exact .inr (.inr ⟨p, rfl⟩)
      · exact .inl rfl

/-- Whatever is found of an entry, its path begins with the entry's name. -/
theorem head?_of_mem_markdownOf {e : String × Node} {x : Path × File}
    (h : x ∈ d.markdownOf depth above folder e) : x.1.head? = some e.1 := by
  obtain hnone | ⟨f, -, -, hfile⟩ | ⟨p, hbelow⟩ := markdownOf_cases d depth above folder e
  · rw [hnone] at h
    cases h
  · rw [hfile, List.mem_singleton] at h
    rw [h]
    rfl
  · rw [hbelow] at h
    obtain ⟨y, -, rfl⟩ := List.mem_map.mp h
    rfl

theorem markdown_of_mem (hd : d.root.WellNamed) {x : Path × File}
    (h : x ∈ d.markdownBelow depth above folder) : x.1.Markdown := by
  induction depth generalizing above folder x with
  | zero => cases h
  | succ depth ih =>
    rw [markdownBelow_succ, List.mem_flatMap] at h
    obtain ⟨e, he, hx⟩ := h
    have hname := names_entriesAt hd e he
    obtain hnone | ⟨f, stem, hstem, hfile⟩ | ⟨p, hbelow⟩ := markdownOf_cases d depth above folder e
    · rw [hnone] at hx
      cases hx
    · rw [hfile, List.mem_singleton] at hx
      rw [hx]
      exact Path.markdown_singleton hname hstem
    · rw [hbelow] at hx
      obtain ⟨y, hy, rfl⟩ := List.mem_map.mp hx
      exact (ih hy).cons hname

theorem nodup_paths (hd : d.root.WellNamed) (depth : Nat) (above : List Path) (folder : Path) :
    ((d.markdownBelow depth above folder).map Prod.fst).Nodup := by
  induction depth generalizing above folder with
  | zero => exact .nil
  | succ depth ih =>
    rw [markdownBelow_succ, List.map_flatMap, List.nodup_flatMap]
    refine ⟨fun e _ => ?_, ?_⟩
    · obtain hnone | ⟨f, -, -, hfile⟩ | ⟨p, hbelow⟩ := markdownOf_cases d depth above folder e
      · rw [hnone]
        exact .nil
      · rw [hfile]
        exact List.nodup_singleton _
      · have hnodup := (ih (folder :: above) p).map (List.cons_injective (a := e.1))
        rw [List.map_map] at hnodup
        rw [hbelow, List.map_map]
        exact hnodup
    · refine (ascending_entriesAt hd).imp fun hlt => List.disjoint_left.mpr fun q hq hq' => ?_
      obtain ⟨x, hx, rfl⟩ := List.mem_map.mp hq
      obtain ⟨y, hy, hyx⟩ := List.mem_map.mp hq'
      have hhead := head?_of_mem_markdownOf hx
      rw [← hyx, head?_of_mem_markdownOf hy] at hhead
      exact String.lt_irrefl _ (Option.some.inj hhead ▸ hlt)

end Disk

end NoteIndex
