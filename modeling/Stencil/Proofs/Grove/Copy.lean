import Stencil.Proofs.Grove.Graft
/-!
Copies of trees. A copy is made node by node in document order, each new node below the copy of its
parent, and looks like what it is a copy of; the nodes there were stay as they were.
-/

namespace Stencil

open Grove

/-- Trees of the same shape with the same contents. -/
inductive Grove.Alike : Grove → Grove → Prop where
  | bare : Alike .bare .bare
  | tree {x y : NodeId} {data : NodeData} {f f' g g' : Grove} : Alike f f' → Alike g g' →
      Alike (.tree x data f g) (.tree y data f' g')

namespace Document

variable {source d e : Document} {p? : Option NodeId} {a g sub xsub : Grove} {id x y : NodeId} {data xdata : NodeData}

/-- A new tree is put behind what is below a node on its own. -/
theorem Forest.appendNew (hd : d.Forest) (hx : d.Stands (.single x xdata xsub)) (hy : d.Stands (.single y data sub))
    (hne : y ≠ x) (helement : ¬xdata.IsText) (hroot : y ≠ d.root) : (d.appendNew x y).Forest ∧
      (d.appendNew x y).Stands (.single x xdata (xsub ++ .single y data sub)) := by
  have hx' : d.Stands (plug [] (.single x xdata (xsub ++ .bare))) := by simpa using hx
  have hnodes : ∀ id, (d.appendNew x y).node? id =
      if id = x then some ⟨xdata, (chain []).head?, xsub.tops ++ y :: Grove.bare.tops⟩
      else if id = y then some ⟨data, some x, sub.tops⟩ else d.node? id := fun id ↦ by
    rw [node?_appendNew hne, (holds_single.1 hx.holds).1, (holds_single.1 hy.holds).1]
    rfl
  have hapart : y ∉ (plug [] (.single x xdata (xsub ++ .bare))).order := fun hin ↦ by
    have hsame := hy.unique hx' (by simp) hin
    exact hne (by simpa using congrArg tops hsame)
  refine ⟨hd.graft (by simp [Document.appendNew]) hx' hy hapart helement hroot hnodes, ?_⟩
  simpa using hx'.graft hy hapart helement hnodes

/-- What copying trees below a node on its own makes of a document. -/
structure Copies (d e : Document) (copy : NodeId) (data : NodeData) (old g g' : Grove) : Prop where
  forest : e.Forest
  stands : e.Stands (.single copy data (old ++ g'))
  alike : g.Alike g'
  grows : Grows d e
  new : ∀ id ∈ g'.order, d.node? id = none
  stay : ∀ id, d.node? id ≠ none → id ≠ copy → e.node? id = d.node? id
  made : ∀ id, e.node? id ≠ none → d.node? id ≠ none ∨ id ∈ g'.order

theorem known_of_appendNew (hne : y ≠ x) (hid : (d.appendNew x y).node? id ≠ none) : d.node? id ≠ none := by
  rw [node?_appendNew hne] at hid
  split_ifs at hid with hx hy
  · exact fun hnone ↦ hid (by rw [← hx, hnone]; rfl)
  · exact fun hnone ↦ hid (by rw [← hy, hnone]; rfl)
  · exact hid

theorem foldlM_copies : ∀ (g : Grove) (p? : Option NodeId) (n : ℕ) (d : Document) (copy : NodeId) (data : NodeData) (old : Grove),
    source.Holds p? g → g.Proper → g.order.length ≤ n → d.Forest → d.Stands (.single copy data old) →
      (data.IsText → g = bare) → ∃ g' e, g.tops.foldlM (fun (p : NodeId × Document) child ↦ do
        let (c, e) ← copyFrom source n p.2 child
        .ok (copy, e.appendNew copy c)) (copy, d) = Except.ok (ε := DocumentError) (copy, e) ∧
      Copies d e copy data old g g'
  | .bare, _, _, d, copy, data, old, _, _, _, hd, hcopy, _ =>
    ⟨.bare, d, rfl, hd, by simpa using hcopy, .bare, .refl d, by simp, fun _ _ _ ↦ rfl, fun _ ↦ .inl⟩
  | .tree id data below rest, p?, n, d, copy, cdata, old, hg, hproper, hn, hd, hcopy, helement => by
    simp only [order, List.length_cons, List.length_append] at hn
    obtain ⟨n, rfl⟩ : ∃ k, n = k + 1 := ⟨n - 1, by omega⟩
    have helement : ¬cdata.IsText := fun ht ↦ by simpa using helement ht
    -- the node itself, then what is below it
    obtain ⟨below', e, hbelow, hcb⟩ := foldlM_copies below (some id) n (d.create data).2 d.fresh data .bare hg.2.1
      hproper.2.1 (by omega) (hd.create data) (Stands.create d data) hproper.1
    have hfresh : ∀ id, d.node? id ≠ none → id ≠ d.fresh := fun id hid heq ↦ hid (heq ▸ node?_fresh d)
    have hstay : ∀ id, d.node? id ≠ none → e.node? id = d.node? id := fun id hid ↦ by
      have hcreated : (d.create data).2.node? id = d.node? id := by rw [node?_create, if_neg (hfresh id hid)]
      rw [hcb.stay id (by rwa [hcreated]) (hfresh id hid), hcreated]
    have hgrows : Grows d e := (Grows.create d data).trans hcb.grows
    have hkeep : e.Stands (.single copy cdata old) := hcopy.congr fun id hid ↦ hstay id (hcopy.holds.known id hid)
    have hcopyknown : d.node? copy ≠ none := hcopy.holds.known copy (by simp)
    have hroot : d.fresh ≠ e.root := fun heq ↦ by
      rw [hgrows.root] at heq
      exact hd.wellFormed.rooted (heq ▸ node?_fresh d)
    obtain ⟨hforest, hstands⟩ := hcb.forest.appendNew hkeep hcb.stands (hfresh copy hcopyknown).symm helement hroot
    -- then its siblings
    obtain ⟨rest', e', hrest, hcr⟩ := foldlM_copies rest p? (n + 1) (e.appendNew copy d.fresh) copy cdata _ hg.2.2 hproper.2.2
      (by omega) hforest hstands fun ht ↦ absurd ht helement
    have hgrows' := appendNew_grows e copy d.fresh
    refine ⟨.tree d.fresh data below' rest', e', ?_, hcr.forest, ?_, .tree hcb.alike hcr.alike,
      (hgrows.trans hgrows').trans hcr.grows, ?_, fun id hid hne ↦ ?_, fun id hid ↦ ?_⟩
    · rw [tops, List.foldlM_cons, copyFrom, hg.1]
      dsimp only
      rw [create_fst, hbelow]
      exact hrest
    · rw [tree_eq below' rest' d.fresh, ← append_assoc]
      exact hcr.stands
    · rw [order, List.forall_mem_cons, List.forall_mem_append]
      exact ⟨node?_fresh d, fun id hid ↦ (Grows.create d data).unknown (hcb.new id hid),
        fun id hid ↦ (hgrows.trans hgrows').unknown (hcr.new id hid)⟩
    · have happend : (e.appendNew copy d.fresh).node? id = d.node? id := by
        rw [node?_appendNew (hfresh copy hcopyknown).symm, if_neg hne, if_neg (hfresh id hid), hstay id hid]
      rw [hcr.stay id (by rwa [happend]) hne, happend]
    · simp only [order, List.mem_cons, List.mem_append]
      rcases hcr.made id hid with hknown | hin
      · rcases hcb.made id (known_of_appendNew (hfresh copy hcopyknown).symm hknown) with hknown | hin
        · rw [node?_create] at hknown
          split_ifs at hknown with hnew
          · exact .inr (.inl hnew)
          · exact .inl hknown
        · exact .inr (.inr (.inl hin))
      · exact .inr (.inr (.inr hin))

/-- A copy of a node that stands in a document is made of a new node and of copies of what is below. -/
theorem Stands.exists_copies {fs : List Frame} {n : ℕ} (h : source.Stands (plug fs (.single id data sub)))
    (hn : source.size < n) (hd : d.Forest) : ∃ sub' e, Document.copyFrom source n d id = .ok (d.fresh, e) ∧
      Copies (d.create data).2 e d.fresh data .bare sub sub' := by
  obtain ⟨n, rfl⟩ : ∃ k, n = k + 1 := ⟨n - 1, by omega⟩
  have hlength := h.order_length
  rw [order_plug, order_single] at hlength
  simp only [List.length_append, List.length_cons] at hlength
  obtain ⟨hdata, hproper⟩ := Grove.proper_single.1 h.proper_at
  obtain ⟨sub', e, hcopy, hc⟩ := foldlM_copies sub (some id) n (d.create data).2 d.fresh data .bare h.below hproper
    (by omega) (hd.create data) (Stands.create d data) hdata
  refine ⟨sub', e, ?_, hc⟩
  rw [Document.copyFrom, h.node?]
  exact hcopy

/-- A copy of a node that stands in a document, with all below it, stands on its own. -/
theorem Stands.copyFrom {fs : List Frame} {n : ℕ} (h : source.Stands (plug fs (.single id data sub)))
    (hn : source.size < n) (hd : d.Forest) : ∃ sub' e, Document.copyFrom source n d id = .ok (d.fresh, e) ∧ sub.Alike sub' ∧ e.Forest ∧
      e.Stands (.single d.fresh data sub') ∧ Grows d e ∧ (∀ id ∈ sub'.order, d.node? id = none) ∧
      ∀ id, d.node? id ≠ none → e.node? id = d.node? id := by
  obtain ⟨sub', e, hcopy, hc⟩ := h.exists_copies hn hd
  refine ⟨sub', e, hcopy, hc.alike, hc.forest, hc.stands, (Grows.create d data).trans hc.grows,
    fun id hid ↦ (Grows.create d data).unknown (hc.new id hid), fun id hid ↦ ?_⟩
  have hne : id ≠ d.fresh := fun heq ↦ hid (heq ▸ node?_fresh d)
  have hcreated : (d.create data).2.node? id = d.node? id := by rw [node?_create, if_neg hne]
  rw [hc.stay id (by rwa [hcreated]) hne, hcreated]

end Document

end Stencil
