import Stencil.Proofs.Document.PageEdit
/-!
Blocks divided in two, and blocks and leaves copied.
-/

namespace Stencil

def Paragraph.part (id : NodeId) (ls : List Leaf) : List Paragraph := if ls.isEmpty then [] else [⟨id, ls⟩]

namespace Document

variable {d e source : Document} {page above below : List Paragraph} {b : Paragraph} {l m : Leaf} {bid id : NodeId}
  {left right front moved back : List Leaf}

/-! ### Division -/

namespace Shows

theorem moveOut (h : d.Shows (above ++ ⟨bid, front ++ moved ++ back⟩ :: below)) :
    ∃ e, d.moveOut bid (moved.map Leaf.id) ((front ++ back).map Leaf.id) = (d.fresh, e) ∧
      e.Shows (above ++ ⟨bid, front ++ back⟩ :: below) ∧ e.HasBlock none ⟨d.fresh, moved⟩ ∧ Grows d e := by
  have hb : (⟨bid, front ++ moved ++ back⟩ : Paragraph) ∈ above ++ ⟨bid, front ++ moved ++ back⟩ :: below := by simp
  have hnode := (h.blocks _ hb).node
  have hdata : (d.data? bid).getD (.text "") = .element paragraphTag [] := by simp [data?, hnode]
  have hleaves := h.nodup_leaves hb
  simp only [List.map_append, List.nodup_append] at hleaves
  have hmoved : (moved.map Leaf.id).Nodup := hleaves.1.2.1
  have hfreshb : d.fresh ≠ bid := (ne_fresh hnode).symm
  have hleaf : ∀ l ∈ moved, d.HasLeaf bid l := fun l hl ↦ (h.blocks _ hb).leaves l (by simp [hl])
  have hfreshmoved : d.fresh ∉ moved.map Leaf.id := by
    intro hin
    obtain ⟨l, hl, heq⟩ := List.mem_map.1 hin
    exact ne_fresh (hleaf l hl) heq
  have hbmoved : bid ∉ moved.map Leaf.id := by
    intro hin
    obtain ⟨l, hl, heq⟩ := List.mem_map.1 hin
    exact h.leaf_ne_block hb (l := l) (by simp [hl]) heq
  have hfresh : (d.modify bid fun n ↦ { n with children := (front ++ back).map Leaf.id }).fresh = d.fresh := by
    simp [fresh, handle]
  have hnodes : ∀ id, (d.moveOut bid (moved.map Leaf.id) ((front ++ back).map Leaf.id)).2.node? id =
      if id = d.fresh then some ⟨.element paragraphTag [], none, moved.map Leaf.id⟩
      else if id ∈ moved.map Leaf.id then (d.node? id).map fun n ↦ { n with parent? := some d.fresh }
      else if id = bid then some ⟨.element paragraphTag [], some d.root, (front ++ back).map Leaf.id⟩
      else d.node? id := by
    intro id
    simp only [Document.moveOut, hdata, create_fst, hfresh]
    by_cases hid : id = d.fresh
    · subst hid
      rw [node?_modify_self, node?_foldl_modify _ _ hmoved, if_neg hfreshmoved, node?_create, hfresh, if_pos rfl,
        if_pos rfl]
      rfl
    · rw [node?_modify_of_ne hid, node?_foldl_modify _ _ hmoved, node?_create, hfresh, if_neg hid, if_neg hid]
      by_cases hm : id ∈ moved.map Leaf.id
      · have hne : id ≠ bid := fun heq ↦ hbmoved (heq ▸ hm)
        rw [if_pos hm, if_pos hm, node?_modify_of_ne hne]
      · rw [if_neg hm, if_neg hm]
        split
        · next heq =>
          subst heq
          rw [node?_modify_self, hnode]
          rfl
        · next hne => rw [node?_modify_of_ne hne]
  have hgrows : Grows d (d.moveOut bid (moved.map Leaf.id) ((front ++ back).map Leaf.id)).2 := by
    simp only [Document.moveOut]
    exact ((((Grows.modify _ _ _).trans (Grows.create _ _)).trans (foldl_modify_grows _ _)).trans
      (Grows.modify _ _ _))
  have hlinked : (d.moveOut bid (moved.map Leaf.id) ((front ++ back).map Leaf.id)).2.Linked := by
    intro id p hp
    have hchildren : ∀ p, (d.moveOut bid (moved.map Leaf.id) ((front ++ back).map Leaf.id)).2.children p =
        if p = d.fresh then moved.map Leaf.id
        else if p = bid then (front ++ back).map Leaf.id
        else d.children p := by
      intro p
      rw [children, hnodes, children]
      by_cases hfp : p = d.fresh
      · simp [hfp]
      · rw [if_neg hfp, if_neg hfp]
        split
        · next hm =>
          have hne : p ≠ bid := fun heq ↦ hbmoved (heq ▸ hm)
          rw [if_neg hne]
          cases d.node? p <;> rfl
        · split <;> rfl
    rw [parent?, hnodes] at hp
    by_cases hfid : id = d.fresh
    · simp [hfid] at hp
    rw [if_neg hfid] at hp
    by_cases hm : id ∈ moved.map Leaf.id
    · obtain ⟨l, hl, rfl⟩ := List.mem_map.1 hm
      rw [if_pos hm, hleaf l hl] at hp
      obtain rfl : d.fresh = p := by simpa using hp
      rw [hchildren, if_pos rfl]
      exact hm
    · rw [if_neg hm] at hp
      have hold : d.parent? id = some p := by
        by_cases hb : id = bid
        · rw [if_pos hb] at hp
          rw [hb, parent?, hnode]
          exact hp
        · rwa [if_neg hb] at hp
      have hin := h.linked id p hold
      have hfp : p ≠ d.fresh := by
        rintro rfl
        simp [children, node?_fresh] at hin
      rw [hchildren, if_neg hfp]
      split
      · next heq =>
        rw [heq, children, hnode] at hin
        simp only [Option.map_some, Option.getD_some, List.map_append, List.mem_append] at hin hm ⊢
        tauto
      · exact hin
  refine ⟨(d.moveOut bid (moved.map Leaf.id) ((front ++ back).map Leaf.id)).2, ?_, ?_, ⟨?_, fun l hl ↦ ?_⟩, hgrows⟩
  · refine Prod.ext ?_ rfl
    simp only [Document.moveOut, create_fst, hfresh]
  · have hshows := h.swapLeaves (e := (d.moveOut bid (moved.map Leaf.id) ((front ++ back).map Leaf.id)).2)
      [] hgrows.serial hlinked ?_ ?_ (by simp) (by simp) (by simp)
    · simpa using hshows
    · rw [hnodes, if_neg hfreshb.symm, if_neg hbmoved, if_pos rfl]
      simp
    · intro id hid hne hm
      have hfreshid : id ≠ d.fresh := by
        rintro rfl
        exact h.notMem_of_unknown (node?_fresh d) hid
      rw [hnodes, if_neg hfreshid, if_neg hm, if_neg hne]
  · rw [hnodes, if_pos rfl]
  · have hne : l.id ≠ d.fresh := ne_fresh (hleaf l hl)
    rw [HasLeaf, hnodes, if_neg hne, if_pos (List.mem_map_of_mem hl), hleaf l hl]
    rfl

theorem ancestorChild?_root (h : d.Shows page) (hb : b ∈ page) (hl : l ∈ b.leaves) :
    d.ancestorChild? d.root l.id = some b.id := by
  have hleaf : (d.parent? l.id == some d.root) = false := by
    rw [h.parent?_leaf hb hl]
    simpa using h.block_ne_root hb
  have hblock : (d.parent? b.id == some d.root) = true := by
    rw [h.parent?_block hb]
    simp
  rw [ancestorChild?, h.ancestors_leaf hb hl, List.find?_cons, hleaf, List.find?_cons, hblock]

theorem ancestorChild?_block (h : d.Shows page) (hb : b ∈ page) (hl : l ∈ b.leaves) :
    d.ancestorChild? b.id l.id = some l.id := by
  have hleaf : (d.parent? l.id == some b.id) = true := by
    rw [h.parent?_leaf hb hl]
    simp
  rw [ancestorChild?, List.find?_cons, hleaf]

end Shows

namespace Shows

section Carry

variable {side : Side} {siblings kept : List NodeId} (h : d.Shows (above ++ ⟨bid, left ++ m :: right⟩ :: below))
  (hcut : side.cut m.id ((left ++ m :: right).map Leaf.id) = (siblings, kept))
  (hgather : side.gather siblings none = siblings)

include h hcut hgather

theorem carry_nothing (hnone : siblings = []) : carry side bid d.size d m.id none = (none, d) := by
  have hb : (⟨bid, left ++ m :: right⟩ : Paragraph) ∈ above ++ ⟨bid, left ++ m :: right⟩ :: below := by simp
  have hne : m.id ≠ bid := h.leaf_ne_block hb (l := m) (by simp)
  have hparent : d.parent? m.id = some bid := h.parent?_leaf hb (l := m) (by simp)
  have hchildren : d.children bid = (left ++ m :: right).map Leaf.id := h.children_block hb
  subst hnone
  obtain ⟨n, hn⟩ : ∃ n, d.size = n + 1 + 1 := ⟨d.size - 2, by have := h.two_le_size hb; omega⟩
  rw [hn]
  simp only [carry, if_neg hne, hparent, hchildren, hcut, hgather, if_true]

/-- What stands on a side of a leaf is carried out of its block. -/
theorem carry_something (hsome : siblings ≠ []) : carry side bid d.size d m.id none =
    (some (d.moveOut bid siblings kept).1, (d.moveOut bid siblings kept).2) := by
  have hb : (⟨bid, left ++ m :: right⟩ : Paragraph) ∈ above ++ ⟨bid, left ++ m :: right⟩ :: below := by simp
  have hne : m.id ≠ bid := h.leaf_ne_block hb (l := m) (by simp)
  have hparent : d.parent? m.id = some bid := h.parent?_leaf hb (l := m) (by simp)
  have hchildren : d.children bid = (left ++ m :: right).map Leaf.id := h.children_block hb
  obtain ⟨s, ss, rfl⟩ := List.exists_cons_of_ne_nil hsome
  obtain ⟨n, hn⟩ : ∃ n, d.size = n + 1 + 1 := ⟨d.size - 2, by have := h.two_le_size hb; omega⟩
  rw [hn]
  simp only [carry, if_neg hne, hparent, hchildren, hcut, hgather, if_true]

end Carry

theorem splitOff_root {side : Side} (h : d.Shows (above ++ ⟨bid, left ++ m :: right⟩ :: below)) :
    d.splitOff d.root m.id side = match carry side bid d.size d m.id none with
      | (none, e) => .ok (none, e)
      | (some part, e) => (match side with
          | .before => e.insertBefore bid part
          | .after => e.insertAfter bid part).map fun e ↦ (some part, e) := by
  have hb : (⟨bid, left ++ m :: right⟩ : Paragraph) ∈ above ++ ⟨bid, left ++ m :: right⟩ :: below := by simp
  simp only [splitOff, check_ok h.root, check_ok (h.node?_leaf hb (l := m) (by simp)),
    h.ancestorChild?_root hb (l := m) (by simp), bind, Except.bind]
  rcases carry side bid d.size d m.id none with ⟨_ | part, e⟩
  · rfl
  · cases side with
    | before => cases e.insertBefore bid part <;> rfl
    | after => cases e.insertAfter bid part <;> rfl

theorem nodup_part (h : d.Shows page) (hb : b ∈ page) {ls : List Leaf} (hsub : ls.Sublist b.leaves) :
    (Paragraph.ids ⟨d.fresh, ls⟩).Nodup := by
  refine List.nodup_cons.2 ⟨fun hin ↦ ?_, (h.nodup_leaves hb).sublist (hsub.map _)⟩
  obtain ⟨x, hx, heq⟩ := List.mem_map.1 hin
  exact ne_fresh (h.node?_leaf hb (hsub.subset hx)) heq

theorem splitOff_before (h : d.Shows (above ++ ⟨bid, left ++ m :: right⟩ :: below)) :
    ∃ part? e, d.splitOff d.root m.id .before = .ok (part?, e) ∧ (part? = none → e = d ∧ left = []) ∧
      e.Shows (above ++ Paragraph.part d.fresh left ++ ⟨bid, m :: right⟩ :: below) ∧ Grows d e := by
  have hb : (⟨bid, left ++ m :: right⟩ : Paragraph) ∈ above ++ ⟨bid, left ++ m :: right⟩ :: below := by simp
  have hcut : Side.cut .before m.id ((left ++ m :: right).map Leaf.id) =
      (left.map Leaf.id, (m :: right).map Leaf.id) := by
    rw [List.map_append, List.map_cons, Side.cut, takeWhile_ne h.notMem_left, dropWhile_ne h.notMem_left]
  rw [h.splitOff_root]
  by_cases hleft : left = []
  · rw [h.carry_nothing hcut (by simp [Side.gather]) (by simp [hleft])]
    exact ⟨none, d, rfl, fun _ ↦ ⟨rfl, hleft⟩, by simpa [Paragraph.part, hleft] using h, Grows.refl d⟩
  · have h' : d.Shows (above ++ ⟨bid, [] ++ left ++ (m :: right)⟩ :: below) := by simpa using h
    obtain ⟨e, he, hshows, hpart, hgrows⟩ := h'.moveOut
    rw [List.nil_append] at he
    obtain ⟨f, hf, hshows', hgrows'⟩ := hshows.insertBefore_block hpart
      (h.nodup_part hb (List.sublist_append_left _ _)) (hgrows.root ▸ h.fresh_ne_root)
    rw [h.carry_something hcut (by simp [Side.gather]) (by simpa using hleft), he]
    refine ⟨some d.fresh, f, ?_, by simp, by simpa [Paragraph.part, hleft] using hshows', hgrows.trans hgrows'⟩
    dsimp only at hf ⊢
    rw [hf]
    rfl

theorem splitOff_after (h : d.Shows (above ++ ⟨bid, left ++ m :: right⟩ :: below)) :
    ∃ part? e, d.splitOff d.root m.id .after = .ok (part?, e) ∧ (part? = none → e = d ∧ right = []) ∧
      e.Shows (above ++ ⟨bid, left ++ [m]⟩ :: (Paragraph.part d.fresh right ++ below)) ∧ Grows d e := by
  have hb : (⟨bid, left ++ m :: right⟩ : Paragraph) ∈ above ++ ⟨bid, left ++ m :: right⟩ :: below := by simp
  have hcut : Side.cut .after m.id ((left ++ m :: right).map Leaf.id) =
      (right.map Leaf.id, (left ++ [m]).map Leaf.id) := by
    rw [List.map_append, List.map_cons, Side.cut, takeWhile_ne h.notMem_left, dropWhile_ne h.notMem_left]
    simp
  rw [h.splitOff_root]
  by_cases hright : right = []
  · rw [h.carry_nothing hcut (by simp [Side.gather]) (by simp [hright])]
    exact ⟨none, d, rfl, fun _ ↦ ⟨rfl, hright⟩, by simpa [Paragraph.part, hright] using h, Grows.refl d⟩
  · have h' : d.Shows (above ++ ⟨bid, (left ++ [m]) ++ right ++ []⟩ :: below) := by simpa using h
    obtain ⟨e, he, hshows, hpart, hgrows⟩ := h'.moveOut
    rw [List.append_nil] at he hshows
    obtain ⟨f, hf, hshows', hgrows'⟩ := hshows.insertAfter_block hpart
      (h.nodup_part hb (by simp)) (hgrows.root ▸ h.fresh_ne_root)
    rw [h.carry_something hcut (by simp [Side.gather]) (by simpa using hright), he]
    refine ⟨some d.fresh, f, ?_, by simp, by simpa [Paragraph.part, hright] using hshows', hgrows.trans hgrows'⟩
    dsimp only at hf ⊢
    rw [hf]
    rfl

theorem splitOff_block {side : Side} (h : d.Shows page) (hb : b ∈ page) (hl : l ∈ b.leaves) :
    d.splitOff b.id l.id side = .ok (none, d) := by
  obtain ⟨n, hn⟩ : ∃ n, d.size = n + 1 := ⟨d.size - 1, by have := h.size_pos; omega⟩
  simp only [splitOff, check_ok (h.blocks b hb).node, check_ok (h.node?_leaf hb hl),
    h.ancestorChild?_block hb hl, bind, Except.bind, hn, carry, if_true]

end Shows

/-! ### Copies -/

/-- What a copy leaves behind: a block that stands nowhere, with new nodes and the contents of
another, in a document that keeps the nodes it had. -/
structure Copied (d e : Document) (b c : Paragraph) : Prop where
  block : e.HasBlock none c
  contents : c.leaves.map Leaf.content = b.leaves.map Leaf.content
  nodup : c.ids.Nodup
  new : ∀ id ∈ c.ids, d.node? id = none
  frame : ∀ id, d.node? id ≠ none → e.node? id = d.node? id
  linked : d.Linked → e.Linked
  grows : Grows d e

theorem copyFrom_leaf {parent : NodeId} (h : source.HasLeaf parent l) (n : ℕ) :
    copyFrom source (n + 1) d l.id = .ok (d.fresh, (d.create l.content.data).2) := by
  rw [HasLeaf] at h
  rw [copyFrom]
  simp only [h, create_fst, List.foldlM_nil]
  rfl

theorem copyLeaves (n : ℕ) {parent c : NodeId} : ∀ (ls acc : List Leaf) (d : Document),
    (∀ l ∈ ls, source.HasLeaf parent l) → d.HasBlock none ⟨c, acc⟩ → (Paragraph.ids ⟨c, acc⟩).Nodup →
    ∃ news e, (ls.map Leaf.id).foldlM (fun (p : NodeId × Document) child ↦ do
        let (x, f) ← copyFrom source (n + 1) p.2 child
        .ok (c, f.appendNew c x)) (c, d) = (.ok (c, e) : Except DocumentError (NodeId × Document)) ∧
      news.map Leaf.content = ls.map Leaf.content ∧ e.HasBlock none ⟨c, acc ++ news⟩ ∧
      (Paragraph.ids ⟨c, acc ++ news⟩).Nodup ∧ (∀ l ∈ news, d.node? l.id = none) ∧
      (∀ id, id ≠ c → d.node? id ≠ none → e.node? id = d.node? id) ∧ (d.Linked → e.Linked) ∧ Grows d e := by
  intro ls
  induction ls with
  | nil =>
    intro acc d _ hblock hnodup
    exact ⟨[], d, rfl, rfl, by simpa using hblock, by simpa using hnodup, by simp, fun _ _ _ ↦ rfl, id,
      Grows.refl d⟩
  | cons l ls ih =>
    intro acc d hleaves hblock hnodup
    have hcopy := copyFrom_leaf (d := d) (hleaves l (List.mem_cons_self ..)) n
    have hne : d.fresh ≠ c := (ne_fresh hblock.node).symm
    have hgrows := (Grows.create d l.content.data).trans (appendNew_grows (d.create l.content.data).2 c d.fresh)
    have hframe : ∀ id, id ≠ c → d.node? id ≠ none →
        ((d.create l.content.data).2.appendNew c d.fresh).node? id = d.node? id := by
      intro id hid hknown
      have hfresh : id ≠ d.fresh := fun heq ↦ hknown (heq ▸ node?_fresh d)
      rw [node?_appendNew hne, if_neg hid, if_neg hfresh, node?_create, if_neg hfresh]
    have hblock' : ((d.create l.content.data).2.appendNew c d.fresh).HasBlock none
        ⟨c, acc ++ [⟨d.fresh, l.content⟩]⟩ := by
      refine ⟨?_, fun x hx ↦ ?_⟩
      · rw [node?_appendNew hne, if_pos rfl, node?_create, if_neg hne.symm, hblock.node]
        simp
      · rcases List.mem_append.1 hx with hx | hx
        · have hleaf := hblock.leaves x hx
          have hxc : x.id ≠ c := fun heq ↦ (List.nodup_cons.1 hnodup).1 (heq ▸ List.mem_map_of_mem hx)
          exact hleaf.congr (hframe _ hxc (by rw [HasLeaf] at hleaf; simp [hleaf]))
        · obtain rfl := List.mem_singleton.1 hx
          rw [HasLeaf, node?_appendNew hne, if_neg hne, if_pos rfl, node?_create, if_pos rfl]
          rfl
    have hnodup' : (Paragraph.ids ⟨c, acc ++ [⟨d.fresh, l.content⟩]⟩).Nodup := by
      have hout : d.fresh ∉ Paragraph.ids ⟨c, acc⟩ := fun hin ↦ hblock.known _ hin (node?_fresh d)
      have hids : Paragraph.ids ⟨c, acc ++ [⟨d.fresh, l.content⟩]⟩ = Paragraph.ids ⟨c, acc⟩ ++ [d.fresh] := by simp [Paragraph.ids]
      rw [hids, List.nodup_append]
      refine ⟨hnodup, List.nodup_singleton _, ?_⟩
      rintro a ha x hx rfl
      exact hout (List.mem_singleton.1 hx ▸ ha)
    have hcnode : (d.create l.content.data).2.node? c =
        some ⟨.element paragraphTag [], none, acc.map Leaf.id⟩ := by
      rw [node?_create, if_neg hne.symm, hblock.node]
    have hlinked : d.Linked → ((d.create l.content.data).2.appendNew c d.fresh).Linked := fun h ↦
      (h.create l.content.data).attach (acc.map Leaf.id ++ [d.fresh]) hcnode hne (fun _ hx ↦ List.mem_append_left _ hx) (by simp) fun id ↦ by
          rw [node?_appendNew hne, hcnode]
          rfl
    obtain ⟨news, e, hfold, hcontents, heblock, henodup, hnew, heframe, helinked, hegrows⟩ :=
      ih (acc ++ [⟨d.fresh, l.content⟩]) _ (fun x hx ↦ hleaves x (List.mem_cons_of_mem _ hx)) hblock' hnodup'
    refine ⟨⟨d.fresh, l.content⟩ :: news, e, ?_, by simp [hcontents], by simpa using heblock, by simpa using henodup, ?_,
      fun id hid hknown ↦ ?_, fun h ↦ helinked (hlinked h), hgrows.trans hegrows⟩
    · rw [List.map_cons, List.foldlM_cons, hcopy]
      exact hfold
    · intro x hx
      rcases List.mem_cons.1 hx with rfl | hx
      · exact node?_fresh d
      · exact hgrows.unknown (hnew x hx)
    · rw [heframe id hid (hgrows.known id hknown), hframe id hid hknown]

theorem copyFrom_block {parent? : Option NodeId} (h : source.HasBlock parent? b) (n : ℕ) (d : Document) :
    ∃ c e, copyFrom source (n + 1 + 1) d b.id = .ok (c.id, e) ∧ Copied d e b c := by
  have hnode : (d.create (.element paragraphTag [])).2.node? d.fresh = some ⟨.element paragraphTag [], none, []⟩ := by
    rw [node?_create, if_pos rfl]
  have hblock : (d.create (.element paragraphTag [])).2.HasBlock none ⟨d.fresh, []⟩ := ⟨hnode, by simp⟩
  obtain ⟨news, e, hfold, hcontents, heblock, henodup, hnew, hframe, hlinked, hgrows⟩ := copyLeaves n b.leaves [] _ h.leaves hblock (by simp [Paragraph.ids])
  have hgrows' := (Grows.create d (.element paragraphTag [])).trans hgrows
  refine ⟨⟨d.fresh, news⟩, e, ?_, ⟨heblock, hcontents, henodup, ?_, fun id hknown ↦ ?_,
    fun h ↦ hlinked (h.create _), hgrows'⟩⟩
  · rw [copyFrom]
    simp only [h.node, create_fst]
    exact hfold
  · intro id hid
    rcases List.mem_cons.1 hid with rfl | hid
    · exact node?_fresh d
    · obtain ⟨l, hl, rfl⟩ := List.mem_map.1 hid
      exact (Grows.create _ _).unknown (hnew l hl)
  · have hne : id ≠ d.fresh := fun heq ↦ hknown (heq ▸ node?_fresh d)
    rw [hframe id hne ((Grows.create _ _).known id hknown), node?_create, if_neg hne]

namespace Shows

theorem deepClone_leaf (h : d.Shows page) (hb : b ∈ page) (hl : l ∈ b.leaves) :
    d.deepClone l.id = .ok (d.fresh, (d.create l.content.data).2) :=
  copyFrom_leaf ((h.blocks b hb).leaves l hl) d.size

theorem deepClone_block (h : d.Shows page) (hb : b ∈ page) :
    ∃ c e, d.deepClone b.id = .ok (c.id, e) ∧ Copied d e b c := by
  obtain ⟨n, hn⟩ : ∃ n, d.size = n + 1 := ⟨d.size - 1, by have := h.size_pos; omega⟩
  rw [deepClone, hn]
  exact copyFrom_block (h.blocks b hb) n d

theorem importSubtree_block (h : source.Shows page) (hb : b ∈ page) (d : Document) :
    ∃ c e, d.importSubtree source b.id = .ok (c.id, e) ∧ Copied d e b c := by
  obtain ⟨n, hn⟩ : ∃ n, source.size = n + 1 := ⟨source.size - 1, by have := h.size_pos; omega⟩
  rw [importSubtree, hn]
  exact copyFrom_block (h.blocks b hb) n d

theorem insertCopy {c b' : Paragraph} (h : d.Shows (above ++ b :: below)) (hc : Copied d e b' c) :
    ∃ f, e.insertBefore b.id c.id = .ok f ∧ f.Shows (above ++ c :: b :: below) ∧ Grows d f := by
  have hshows : e.Shows (above ++ b :: below) := h.congr hc.grows.serial (hc.linked h.linked) fun id hid ↦
    hc.frame id fun hnone ↦ h.notMem_of_unknown hnone hid
  have hroot : c.id ≠ e.root := fun heq ↦ by
    have := hc.new c.id (List.mem_cons_self ..)
    rw [heq, hc.grows.root, h.root] at this
    contradiction
  obtain ⟨f, hf, hfshows, hgrows⟩ := hshows.insertBefore_block hc.block hc.nodup hroot
  exact ⟨f, hf, hfshows, hc.grows.trans hgrows⟩

end Shows

end Document

end Stencil
