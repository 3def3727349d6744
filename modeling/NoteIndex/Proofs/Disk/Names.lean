import NoteIndex.Disk.Change
import NoteIndex.Proofs.Text.Split

/-!
# The names on a disk

No two entries of a folder have the same name, as they stand in ascending order of their names, and
no name has a slash in it, as a path is cut at its slashes before it is followed. This is how a disk
is to begin with, and no change makes it otherwise.
-/

namespace NoteIndex

/-- In every folder of a tree the entries stand in ascending order of their names, and no name has a
slash in it. -/
inductive Node.WellNamed : Node → Prop where
  | file (f : File) : WellNamed (.file f)
  | link (target : String) : WellNamed (.link target)
  | folder {es : List (String × Node)} (ascending : es.Pairwise fun a b => a.1 < b.1)
      (names : ∀ e ∈ es, '/' ∉ e.1.toList) (below : ∀ e ∈ es, WellNamed e.2) :
      WellNamed (.folder es)

def Path.WellNamed (p : Path) : Prop := ∀ name ∈ p, '/' ∉ name.toList

instance (p : Path) : Decidable p.WellNamed :=
  inferInstanceAs (Decidable (∀ name ∈ p, '/' ∉ name.toList))

namespace Path.WellNamed

variable {p : Path} {name : String}

theorem dropLast (h : p.WellNamed) : Path.WellNamed p.dropLast :=
  fun n hn => h n ((List.dropLast_sublist p).subset hn)

theorem snoc (h : p.WellNamed) (hname : '/' ∉ name.toList) : Path.WellNamed (p ++ [name]) :=
  List.forall_mem_append.mpr ⟨h, List.forall_mem_singleton.mpr hname⟩

end Path.WellNamed

/-- The names of a disk, and those on the way to its working folder. -/
structure Disk.WellNamed (d : Disk) : Prop where
  root : d.root.WellNamed
  here : d.here.WellNamed

namespace Node

namespace WellNamed

variable {n m : Node} {p : Path}

theorem ascending_entries (h : n.WellNamed) : n.entries.Pairwise fun a b => a.1 < b.1 := by
  cases h with
  | file f => exact .nil
  | link target => exact .nil
  | folder ascending _ _ => exact ascending

theorem names_entries (h : n.WellNamed) : ∀ e ∈ n.entries, '/' ∉ e.1.toList := by
  cases h with
  | file f => exact fun e he => absurd he List.not_mem_nil
  | link target => exact fun e he => absurd he List.not_mem_nil
  | folder _ names _ => exact names

theorem below_entries (h : n.WellNamed) : ∀ e ∈ n.entries, e.2.WellNamed := by
  cases h with
  | file f => exact fun e he => absurd he List.not_mem_nil
  | link target => exact fun e he => absurd he List.not_mem_nil
  | folder _ _ below => exact below

theorem of_lookup (h : n.WellNamed) {name : String}
    (hm : SortedMap.lookup name n.entries = some m) : m.WellNamed :=
  h.below_entries _ ((SortedMap.mem_entries_iff ⟨_, h.ascending_entries⟩ name m).mpr hm)

theorem of_at? (h : n.WellNamed) (hm : at? p n = some m) : m.WellNamed := by
  induction p generalizing n with
  | nil =>
    cases hm
    exact h
  | cons name r ih =>
    obtain ⟨k, hk, hm⟩ := Option.bind_eq_some_iff.mp hm
    exact ih (h.of_lookup hk) hm

/-- Names on the way are there already, or come from the path. -/
theorem of_alter {f : Option Node → Option Node} {o : Option Node}
    (hf : ∀ o, (∀ n ∈ o, WellNamed n) → ∀ n ∈ f o, WellNamed n) (hp : p.WellNamed)
    (ho : ∀ n ∈ o, WellNamed n) : ∀ n ∈ alter f p o, WellNamed n := by
  induction p generalizing o with
  | nil => exact hf o ho
  | cons name r ih =>
    obtain ⟨hname, hr⟩ := List.forall_mem_cons.mp hp
    rcases o with _ | ⟨f⟩ | ⟨target⟩ | ⟨es⟩
    · exact ho
    · exact ho
    · exact ho
    · -- Only the entry of this name is rewritten, to what the rest of the path makes of it.
      have hes : (Node.folder es).WellNamed := ho _ rfl
      have hbelow (v : Node) (hv : alter f r (SortedMap.lookup name es) = some v) : v.WellNamed :=
        ih hr (fun n hn => hes.of_lookup hn) v hv
      rintro n ⟨⟩
      refine .folder (SortedMap.ascending_alterEntries name _ hes.ascending_entries) ?_ ?_
      · intro e he
        rcases SortedMap.mem_alterEntries he with rfl | he
        · exact hname
        · exact hes.names_entries e he
      · intro e he
        have hmem := (SortedMap.mem_entries_iff
          (SortedMap.alter ⟨es, hes.ascending_entries⟩ name (alter f r)) e.1 e.2).mp he
        rw [SortedMap.find?_alter] at hmem
        split at hmem
        · exact hbelow e.2 hmem
        · exact hes.of_lookup hmem

end WellNamed

end Node

/-- The names on the way to where a path leads. -/
def Place.WellNamed : Place → Prop
  | .found p => p.WellNamed
  | .vacant folder name => folder.WellNamed ∧ '/' ∉ name.toList
  | _ => True

namespace Disk

variable {d : Disk} {here p : Path} {names : List String} {text : String}

theorem wellNamed_namesOf (text : String) : Path.WellNamed (namesOf text) := by
  intro name hname
  obtain ⟨piece, hpiece, rfl⟩ := List.mem_map.mp hname
  rw [String.toList_ofList]
  exact Text.not_mem_of_mem_splitOn piece hpiece

theorem wellNamed_startOf (h : here.WellNamed) (text : String) : (startOf here text).WellNamed := by
  rw [startOf]
  split
  · exact fun name hname => absurd hname List.not_mem_nil
  · exact h

theorem wellNamed_walk {follow : Path → List String → Place} {root : Node}
    (hfollow : ∀ here names, here.WellNamed → Path.WellNamed names →
      (follow here names).WellNamed)
    (hhere : here.WellNamed) (hnames : Path.WellNamed names) :
    (walk follow root here names).WellNamed := by
  induction names generalizing here with
  | nil => exact hhere
  | cons name rest ih =>
    obtain ⟨hname, hrest⟩ := List.forall_mem_cons.mp hnames
    simp only [walk]
    split
    · split
      · exact ih hhere hrest
      · split
        · exact ih hhere.dropLast hrest
        · split
          · split
            · exact ⟨hhere, hname⟩
            · trivial
          · -- A link brings names of its own, which come before those that are left.
            rename_i target _
            exact hfollow _ _ (wellNamed_startOf hhere target)
              (List.forall_mem_append.mpr ⟨wellNamed_namesOf target, hrest⟩)
          · exact ih (hhere.snoc hname) hrest
    · trivial

theorem wellNamed_follow (root : Node) (links : Nat) (hhere : here.WellNamed)
    (hnames : Path.WellNamed names) : (follow root links here names).WellNamed := by
  induction links generalizing here names with
  | zero => exact wellNamed_walk (fun _ _ _ _ => trivial) hhere hnames
  | succ links ih => exact wellNamed_walk (fun _ _ hh hn => ih hh hn) hhere hnames

theorem wellNamed_fresh (h : here.WellNamed) : (fresh here).WellNamed := by
  refine ⟨?_, h⟩
  have hroot : (here.foldr (fun name n => Node.folder [(name, n)]) (.folder [])).WellNamed := by
    induction here with
    | nil => exact .folder .nil (by simp) (by simp)
    | cons name r ih =>
      obtain ⟨hname, hr⟩ := List.forall_mem_cons.mp h
      exact .folder (List.pairwise_singleton ..) (by simpa using hname) (by simpa using ih hr)
  exact hroot

namespace WellNamed

theorem alter (h : d.WellNamed) {f : Option Node → Option Node}
    (hf : ∀ o, (∀ n ∈ o, Node.WellNamed n) → ∀ n ∈ f o, Node.WellNamed n) (hp : p.WellNamed) :
    (d.alter f p).WellNamed := by
  refine ⟨?_, h.here⟩
  have hroot := Node.WellNamed.of_alter hf hp (o := some d.root) (by simpa using h.root)
  rw [Disk.alter]
  cases hnew : Node.alter f p (some d.root) with
  | none => exact h.root
  | some n => exact hroot n hnew

theorem put (h : d.WellNamed) (hp : p.WellNamed) {n : Node} (hn : n.WellNamed) :
    (d.put p n).WellNamed :=
  h.alter (fun _ _ _ hm => Option.some.inj hm ▸ hn) hp

/-! ## Changes -/

variable {e : Disk} {name : String}

theorem enter? (h : d.WellNamed) (hhere : here.WellNamed) (hname : '/' ∉ name.toList)
    (he : d.enter? here name = some (e, p)) : e.WellNamed ∧ p.WellNamed := by
  have hplace : (d.resolveFrom here [name]).WellNamed :=
    wellNamed_follow _ _ hhere (List.forall_mem_singleton.mpr hname)
  have hdown : Path.WellNamed (here ++ [name]) := hhere.snoc hname
  rw [Disk.enter?] at he
  split at he
  · rename_i hfound
    obtain ⟨-, he⟩ := Option.ite_none_right_eq_some.mp he
    obtain ⟨rfl, rfl⟩ := Prod.mk.inj (Option.some.inj he)
    rw [hfound] at hplace
    exact ⟨h, hplace⟩
  · obtain ⟨-, he⟩ := Option.ite_none_right_eq_some.mp he
    obtain ⟨rfl, rfl⟩ := Prod.mk.inj (Option.some.inj he)
    exact ⟨h.put hdown (.folder .nil (by simp) (by simp)), hdown⟩
  · cases he

theorem enterAll? (h : d.WellNamed) (hhere : here.WellNamed) (hnames : Path.WellNamed names)
    (he : d.enterAll? here names = some (e, p)) : e.WellNamed ∧ p.WellNamed := by
  induction names generalizing d here with
  | nil =>
    obtain ⟨rfl, rfl⟩ := Prod.mk.inj (Option.some.inj he)
    exact ⟨h, hhere⟩
  | cons name r ih =>
    obtain ⟨hname, hr⟩ := List.forall_mem_cons.mp hnames
    obtain ⟨⟨d', p'⟩, hfirst, he⟩ := Option.bind_eq_some_iff.mp he
    obtain ⟨hd, hp⟩ := h.enter? hhere hname hfirst
    exact ih hd hp hr he

theorem approach? (h : d.WellNamed) (he : d.approach? text = some (e, p, name)) :
    e.WellNamed ∧ p.WellNamed ∧ '/' ∉ name.toList := by
  rw [Disk.approach?] at he
  split at he
  · cases he
  · rename_i last hlast
    obtain ⟨-, he⟩ := Option.ite_none_left_eq_some.mp he
    obtain ⟨⟨d', p'⟩, henter, he⟩ := Option.map_eq_some_iff.mp he
    obtain ⟨rfl, rfl, rfl⟩ : d' = e ∧ p' = p ∧ last = name := by simpa using he
    obtain ⟨hd, hp⟩ := h.enterAll? (wellNamed_startOf h.here text)
      (wellNamed_namesOf text).dropLast henter
    exact ⟨hd, hp, wellNamed_namesOf text _ (List.mem_of_getLast? hlast)⟩

theorem addFolder? (h : d.WellNamed) (he : d.addFolder? text = some e) : e.WellNamed := by
  obtain ⟨⟨d', p⟩, henter, rfl⟩ := Option.map_eq_some_iff.mp he
  exact (h.enterAll? (wellNamed_startOf h.here text) (wellNamed_namesOf text) henter).1

theorem write? (h : d.WellNamed) {f : File} (he : d.write? text f = some e) : e.WellNamed := by
  obtain ⟨⟨d', p, name⟩, happroach, he⟩ := Option.bind_eq_some_iff.mp he
  obtain ⟨hd, hp, hname⟩ := h.approach? happroach
  have hplace : (d'.resolveFrom p [name]).WellNamed :=
    wellNamed_follow _ _ hp (List.forall_mem_singleton.mpr hname)
  dsimp only at he
  split at he
  · rename_i hfound
    rw [hfound] at hplace
    split at he
    · exact Option.some.inj he ▸ hd.put hplace (.file _)
    · cases he
  · rename_i hvacant
    rw [hvacant] at hplace
    exact Option.some.inj he ▸ hd.put (hplace.1.snoc hplace.2) (.file f)
  · cases he

theorem addLink? (h : d.WellNamed) {target : String} (he : d.addLink? text target = some e) :
    e.WellNamed := by
  obtain ⟨⟨d', p, name⟩, happroach, he⟩ := Option.bind_eq_some_iff.mp he
  obtain ⟨hd, hp, hname⟩ := h.approach? happroach
  dsimp only at he
  split at he
  · exact Option.some.inj he ▸ hd.put (hp.snoc hname) (.link target)
  · cases he

theorem delete? (h : d.WellNamed) (he : d.delete? text = some e) : e.WellNamed := by
  obtain ⟨name, hname, he⟩ := Option.bind_eq_some_iff.mp he
  have hplace : (d.resolveFrom (startOf d.here text) (namesOf text).dropLast).WellNamed :=
    wellNamed_follow _ _ (wellNamed_startOf h.here text) (wellNamed_namesOf text).dropLast
  split at he
  · rename_i p hfound
    rw [hfound] at hplace
    have hlast := wellNamed_namesOf text name (List.mem_of_getLast? hname)
    exact Option.some.inj he ▸ h.alter (fun _ _ _ hm => by cases hm) (hplace.snoc hlast)
  · cases he

end WellNamed

/-- The disks that changes to an empty one come to. -/
inductive Made : Disk → Prop where
  | fresh {here : Path} (h : here.WellNamed) : Made (fresh here)
  | addFolder {d e : Disk} {text : String} (h : Made d) (he : d.addFolder? text = some e) : Made e
  | write {d e : Disk} {text : String} {f : File} (h : Made d) (he : d.write? text f = some e) :
      Made e
  | addLink {d e : Disk} {text target : String} (h : Made d)
      (he : d.addLink? text target = some e) : Made e
  | delete {d e : Disk} {text : String} (h : Made d) (he : d.delete? text = some e) : Made e

theorem Made.wellNamed (h : d.Made) : d.WellNamed := by
  induction h with
  | fresh h => exact wellNamed_fresh h
  | addFolder _ he ih => exact ih.addFolder? he
  | write _ he ih => exact ih.write? he
  | addLink _ he ih => exact ih.addLink? he
  | delete _ he ih => exact ih.delete? he

end Disk

end NoteIndex
