import NoteIndex.Index.Update

/-!
# What the maps of an index say

Each of the maps stands for a relation: tags, link keys and titles to notes, and notes to the notes
they link to. `Maps` holds the relations of one index together, the map of backlinks and the one
turned round under a single relation. Every operation on an index has one lemma that says what it
makes of the relations.
-/

namespace NoteIndex.Index

structure Maps (x : Index) (tags links titles edges : String → String → Prop) : Prop where
  tags : x.tags.Lists tags
  links : x.links.Lists links
  titles : x.titles.Lists titles
  backlinks : x.backlinks.Lists fun b a => edges a b
  outbound : x.outbound.Lists edges

namespace Maps

variable {x : Index} {T L N E T' L' N' E' : String → String → Prop}

theorem empty : Maps ∅ (fun _ _ => False) (fun _ _ => False) (fun _ _ => False)
    (fun _ _ => False) where
  tags := IdMap.lists_empty
  links := IdMap.lists_empty
  titles := IdMap.lists_empty
  backlinks := IdMap.lists_empty
  outbound := IdMap.lists_empty

theorem congr (h : x.Maps T L N E) (hT : ∀ k id, T k id ↔ T' k id) (hL : ∀ k id, L k id ↔ L' k id)
    (hN : ∀ k id, N k id ↔ N' k id) (hE : ∀ a b, E a b ↔ E' a b) : x.Maps T' L' N' E' where
  tags := h.tags.congr hT
  links := h.links.congr hL
  titles := h.titles.congr hN
  backlinks := h.backlinks.congr fun b a => hE a b
  outbound := h.outbound.congr hE

theorem congr_edges (h : x.Maps T L N E) (hE : ∀ a b, E a b ↔ E' a b) : x.Maps T L N E' :=
  h.congr (fun _ _ => .rfl) (fun _ _ => .rfl) (fun _ _ => .rfl) hE

theorem withdraw (h : x.Maps T L N E) (r : Record) :
    (x.withdraw r).Maps (fun t i => T t i ∧ ¬ (t ∈ r.tags ∧ i = r.id))
      (fun k i => L k i ∧ ¬ (k ∈ r.linkKeys ∧ i = r.id)) N E where
  tags := h.tags.removeUnder _ _
  links := h.links.removeUnder _ _
  titles := h.titles
  backlinks := h.backlinks
  outbound := h.outbound

theorem contribute (h : x.Maps T L N E) (r : Record) :
    (x.contribute r).Maps (fun t i => (t ∈ r.tags ∧ i = r.id) ∨ T t i)
      (fun k i => (k ∈ r.linkKeys ∧ i = r.id) ∨ L k i) N E where
  tags := h.tags.addUnder _ _
  links := h.links.addUnder _ _
  titles := h.titles
  backlinks := h.backlinks
  outbound := h.outbound

/-- Taken out of every slot that has it, a note stands in none. -/
theorem taken_out_iff {edge slot : Prop} {a id : String} (h : a = id → edge → slot) :
    edge ∧ ¬ (slot ∧ a = id) ↔ edge ∧ a ≠ id :=
  and_congr_right fun he => not_congr ⟨And.right, fun ha => ⟨h ha he, ha⟩⟩

/-- The map turned round knows all the slots that a note stands in. -/
theorem detachOutbound (h : x.Maps T L N E) (id : String) :
    (x.detachOutbound id).Maps T L N fun a b => E a b ∧ a ≠ id where
  tags := h.tags
  links := h.links
  titles := h.titles
  backlinks := by
    refine (h.backlinks.removeUnder (x.outbound.ids id).toList id).congr fun b a => ?_
    have hb : b ∈ (x.outbound.ids id).toList ↔ E id b := h.outbound.mem_iff id b
    rw [hb]
    apply taken_out_iff
    rintro rfl hab
    exact hab
  outbound := h.outbound.erase id

theorem detachIncoming (h : x.Maps T L N E) (id : String) :
    (x.detachIncoming id).Maps T L N fun a b => E a b ∧ b ≠ id where
  tags := h.tags
  links := h.links
  titles := h.titles
  backlinks := h.backlinks.erase id
  outbound := by
    refine (h.outbound.removeUnder (x.backlinks.ids id).toList id).congr fun a b => ?_
    have ha : a ∈ (x.backlinks.ids id).toList ↔ E a id := h.backlinks.mem_iff id a
    rw [ha]
    apply taken_out_iff
    rintro rfl hab
    exact hab

theorem retitle (h : x.Maps T L N E) (id : String) (old : Option String) (new : String) :
    (x.retitle id old new).Maps T L
      (fun k i => (k = new ∧ i = id) ∨ (N k i ∧ ¬ (some k = old ∧ i = id)))
      fun a b => E a b ∧ b ≠ id := by
  have hd := h.detachIncoming id
  cases old with
  | none =>
    exact ⟨hd.tags, hd.links, (hd.titles.addId new id).congr fun k i => by simp, hd.backlinks,
      hd.outbound⟩
  | some key =>
    exact ⟨hd.tags, hd.links,
      ((hd.titles.removeId key id).addId new id).congr fun k i => by simp, hd.backlinks,
      hd.outbound⟩

theorem connect (h : x.Maps T L N E) (source target : String) :
    (x.connect source target).Maps T L N fun a b => (a = source ∧ b = target) ∨ E a b where
  tags := h.tags
  links := h.links
  titles := h.titles
  backlinks := (h.backlinks.addId target source).congr fun b a => by rw [and_comm]
  outbound := h.outbound.addId source target

theorem foldl_connect_out (h : x.Maps T L N E) (source : String) (targets : List String) :
    (targets.foldl (fun x target => x.connect source target) x).Maps T L N
      fun a b => (a = source ∧ b ∈ targets) ∨ E a b := by
  induction targets generalizing x E with
  | nil => exact h.congr_edges fun a b => by simp
  | cons t ts ih =>
    refine (ih (h.connect source t)).congr_edges fun a b => ?_
    rw [List.mem_cons, and_or_left, or_left_comm, or_assoc]

theorem foldl_connect_in (h : x.Maps T L N E) (target : String) (sources : List String) :
    (sources.foldl (fun x source => x.connect source target) x).Maps T L N
      fun a b => (b = target ∧ a ∈ sources) ∨ E a b := by
  induction sources generalizing x E with
  | nil => exact h.congr_edges fun a b => by simp
  | cons s ss ih =>
    refine (ih (h.connect s target)).congr_edges fun a b => ?_
    rw [List.mem_cons, and_or_left, and_comm (a := a = s), or_left_comm, or_assoc]

/-- The titles stay the same all along, so every key resolves as it did at the start. -/
theorem connectOut (h : x.Maps T L N E) (id : String) (keys : List String) :
    (x.connectOut id keys).Maps T L N fun a b => (a = id ∧ ∃ k ∈ keys, N k b) ∨ E a b := by
  induction keys generalizing x E with
  | nil => exact h.congr_edges fun a b => by simp
  | cons k ks ih =>
    have hk := h.foldl_connect_out id (x.titles.ids k).toList
    refine (ih hk).congr_edges fun a b => ?_
    have hb : b ∈ (x.titles.ids k).toList ↔ N k b := h.titles.mem_iff k b
    simp only [hb, List.mem_cons, exists_eq_or_imp]
    rw [and_or_left, or_left_comm, or_assoc]

theorem connectIn (h : x.Maps T L N E) (id key : String) :
    (x.connectIn id key).Maps T L N fun a b => (b = id ∧ L key a) ∨ E a b := by
  refine (h.foldl_connect_in id (x.links.ids key).toList).congr_edges fun a b => ?_
  have ha : a ∈ (x.links.ids key).toList ↔ L key a := h.links.mem_iff key a
  rw [ha]

end Maps

/-! The operations on the maps leave the records and the fingerprints alone. -/

theorem foldl_keeps {α β : Type} (part : Index → β) (f : Index → α → Index)
    (hf : ∀ x a, part (f x a) = part x) (as : List α) (x : Index) :
    part (as.foldl f x) = part x := by
  induction as generalizing x with
  | nil => rfl
  | cons a as ih => rw [List.foldl_cons, ih, hf]

theorem connectOut_keeps {β : Type} (part : Index → β)
    (hp : ∀ x source target, part (connect x source target) = part x) (x : Index) (id : String)
    (keys : List String) : part (x.connectOut id keys) = part x :=
  foldl_keeps part _ (fun x _ => foldl_keeps part _ (fun x t => hp x id t) _ x) keys x

theorem connectIn_keeps {β : Type} (part : Index → β)
    (hp : ∀ x source target, part (connect x source target) = part x) (x : Index)
    (id key : String) : part (x.connectIn id key) = part x :=
  foldl_keeps part _ (fun x s => hp x s id) _ x

end NoteIndex.Index
