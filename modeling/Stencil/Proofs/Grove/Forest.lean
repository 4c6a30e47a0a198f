import Stencil.Proofs.Grove.Held
/-!
Well-formed documents. The links of an arena agree and run in no circle exactly when every node of
it stands in a tree.
-/

namespace Stencil

open Grove

namespace Document

def Climbs (d : Document) (c p : NodeId) : Prop := d.parent? c = some p

/-- The arena of a document is a forest: links to parents and to children agree, no node comes
twice among the children of another, no chain of parents comes back to its start, the root has no
parent, and texts have no children. -/
structure WellFormed (d : Document) : Prop where
  rooted : d.node? d.root ≠ none
  topmost : d.parent? d.root = none
  linked : ∀ p c, c ∈ d.children p ↔ d.parent? c = some p
  distinct : ∀ p, (d.children p).Nodup
  acyclic : ∀ id, ¬Relation.TransGen d.Climbs id id
  leaves : ∀ id, d.isText id = true → d.children id = []

/-- Every node of a document stands in a tree, the root on top of one. -/
structure Forest (d : Document) : Prop where
  root : ∃ g, d.Stands g ∧ g.tops = [d.root]
  all : ∀ id, d.node? id ≠ none → ∃ g, d.Stands g ∧ id ∈ g.order

variable {d : Document} {p? : Option NodeId} {g : Grove} {id x y : NodeId}

theorem finite_known (d : Document) : {id | d.node? id ≠ none}.Finite := by
  refine ((Set.finite_Iio d.size).image d.handle).subset fun id hid ↦ ?_
  obtain ⟨n, hn⟩ := Option.ne_none_iff_exists'.1 hid
  exact ⟨id.index, index_lt_size hn, NodeId.ext (document_eq hn).symm rfl⟩

theorem parent?_unknown (hid : d.node? id = none) : d.parent? id = none := by
  rw [parent?, hid]
  rfl

theorem ancestors_unknown (hid : d.node? id = none) : d.ancestors id = [] := by
  rw [ancestors]
  cases d.size with
  | zero => rfl
  | succ n => rw [climb, parent?_unknown hid]

theorem nextAfter?_unknown (hid : d.node? id = none) : d.nextAfter? id = none := by
  rw [Document.nextAfter?, ancestors_unknown hid, List.findSome?_cons, nextSibling?, parent?_unknown hid]
  rfl

theorem known_of_parent? (h : d.parent? x = some y) : d.node? x ≠ none := by
  intro hx
  simp [parent?, hx] at h

namespace WellFormed

variable (h : d.WellFormed)

include h

theorem known_parent (hp : d.parent? x = some y) : d.node? y ≠ none := by
  intro hy
  have hin := (h.linked y x).2 hp
  simp [children, hy] at hin

theorem known_child (hc : x ∈ d.children y) : d.node? x ≠ none := known_of_parent? ((h.linked y x).1 hc)

theorem strictOrder : IsStrictOrder NodeId (Relation.TransGen d.Climbs) where
  irrefl := h.acyclic

/-! ### Trees below nodes -/

omit h in
/-- The children of a node stand below it when each of them stands. -/
theorem exists_children {parent : NodeId} : ∀ {cs : List NodeId},
    (∀ c ∈ cs, d.parent? c = some parent ∧ ∃ sub, d.Holds (some c) sub ∧ sub.tops = d.children c) →
      ∃ g, d.Holds (some parent) g ∧ g.tops = cs
  | [], _ => ⟨bare, trivial, rfl⟩
  | c :: cs, hall => by
    obtain ⟨g, hg, hcs⟩ := exists_children fun c hc ↦ hall c (List.mem_cons_of_mem _ hc)
    obtain ⟨hparent, sub, hsub, hchildren⟩ := hall c (List.mem_cons_self ..)
    obtain ⟨⟨data, _, _⟩, hn⟩ := Option.ne_none_iff_exists'.1 (known_of_parent? hparent)
    rw [Document.parent?, hn] at hparent
    obtain rfl : _ = some parent := hparent
    rw [Document.children, hn] at hchildren
    obtain rfl : sub.tops = _ := hchildren
    exact ⟨.tree c data sub g, ⟨hn, hsub, hg⟩, by rw [tops, hcs]⟩

theorem exists_below (hid : d.node? id ≠ none) : ∃ sub, d.Holds (some id) sub ∧ sub.tops = d.children id := by
  have := h.strictOrder
  have hwf : {id | d.node? id ≠ none}.WellFoundedOn (Relation.TransGen d.Climbs) := (finite_known d).wellFoundedOn
  refine hwf.induction (P := fun id ↦ ∃ sub, d.Holds (some id) sub ∧ sub.tops = d.children id) hid fun id _ ih ↦ ?_
  refine exists_children fun c hc ↦ ?_
  have hparent := (h.linked id c).1 hc
  exact ⟨hparent, ih c (h.known_child hc) (.single hparent)⟩

theorem exists_top (hid : d.node? id ≠ none) : ∃ top, Relation.ReflTransGen d.Climbs id top ∧
    d.node? top ≠ none ∧ d.parent? top = none := by
  have := h.strictOrder
  have hwf : {id | d.node? id ≠ none}.WellFoundedOn (Function.swap (Relation.TransGen d.Climbs)) :=
    (finite_known d).wellFoundedOn
  refine hwf.induction (P := fun id ↦ ∃ top, Relation.ReflTransGen d.Climbs id top ∧ d.node? top ≠ none ∧
    d.parent? top = none) hid fun id hid ih ↦ ?_
  cases hparent : d.parent? id with
  | none => exact ⟨id, .refl, hid, hparent⟩
  | some p =>
    obtain ⟨top, hclimb, htop⟩ := ih p (h.known_parent hparent) (.single hparent)
    exact ⟨top, .head hparent hclimb, htop⟩

/-- What climbs to a node of a grove is in the grove. -/
theorem mem_order_of_climbs (hg : d.Holds p? g) (hy : y ∈ g.order) (hclimb : Relation.ReflTransGen d.Climbs x y) :
    x ∈ g.order := by
  induction hclimb using Relation.ReflTransGen.head_induction_on with
  | refl => exact hy
  | head hstep _ ih => exact hg.children_mem _ ih _ ((h.linked _ _).2 hstep)

omit h in
theorem exists_climbs (hg : d.Holds p? g) : ∀ x ∈ g.order, ∃ t ∈ g.tops, Relation.ReflTransGen d.Climbs x t := by
  induction g generalizing p? with
  | bare => simp
  | tree id data below rest ihb ihr =>
    rw [order, List.forall_mem_cons, List.forall_mem_append]
    refine ⟨⟨id, List.mem_cons_self .., .refl⟩, fun x hx ↦ ?_, fun x hx ↦ ?_⟩
    · obtain ⟨t, ht, hclimb⟩ := ihb hg.2.1 x hx
      exact ⟨id, List.mem_cons_self .., hclimb.tail (hg.2.1.parent?_top t ht)⟩
    · obtain ⟨t, ht, hclimb⟩ := ihr hg.2.2 x hx
      exact ⟨t, List.mem_cons_of_mem _ ht, hclimb⟩

theorem siblings_apart {s t : NodeId} (hs : d.parent? s = p?) (ht : d.parent? t = p?) (hne : s ≠ t)
    (hxs : Relation.ReflTransGen d.Climbs x s) (hxt : Relation.ReflTransGen d.Climbs x t) : False := by
  -- of two nodes above a third one, one is above the other
  have hfork : ∀ {s t : NodeId}, d.parent? s = p? → d.parent? t = p? → s ≠ t →
      Relation.ReflTransGen d.Climbs s t → False := by
    intro s t hs ht hne hst
    obtain rfl | ⟨q, hq, hqt⟩ := hst.cases_head
    · exact hne rfl
    · exact h.acyclic t (.head' (ht.trans (hs.symm.trans hq)) hqt)
  have hunique : Relator.RightUnique d.Climbs := fun a b c hb hc ↦ Option.some.inj (hb.symm.trans hc)
  rcases Relation.ReflTransGen.total_of_right_unique hunique hxs hxt with hst | hts
  · exact hfork hs ht hne hst
  · exact hfork ht hs hne.symm hts

theorem nodup_order (hg : d.Holds p? g) (htops : g.tops.Nodup) : g.order.Nodup := by
  induction g generalizing p? with
  | bare => exact List.nodup_nil
  | tree id data below rest ihb ihr =>
    obtain ⟨hid, hrest⟩ := List.nodup_cons.1 htops
    have hparent : d.parent? id = p? := by simp [Document.parent?, hg.1]
    have hchildren : below.tops = d.children id := by simp [Document.children, hg.1]
    have hbelow : ∀ x ∈ below.order, ∃ c, d.Climbs c id ∧ Relation.ReflTransGen d.Climbs x c := fun x hx ↦ by
      obtain ⟨c, hc, hclimb⟩ := exists_climbs hg.2.1 x hx
      exact ⟨c, hg.2.1.parent?_top c hc, hclimb⟩
    have happart : ∀ x ∈ rest.order, ¬Relation.ReflTransGen d.Climbs x id := fun x hx hclimb ↦ by
      obtain ⟨t, ht, hxt⟩ := exists_climbs hg.2.2 x hx
      exact h.siblings_apart hparent (hg.2.2.parent?_top t ht) (fun heq ↦ hid (heq ▸ ht)) hclimb hxt
    rw [order, List.nodup_cons, List.mem_append, not_or, List.nodup_append]
    refine ⟨⟨fun hin ↦ ?_, fun hin ↦ happart id hin .refl⟩, ihb hg.2.1 (hchildren ▸ h.distinct id), ihr hg.2.2 hrest,
      fun a ha b hb heq ↦ ?_⟩
    · obtain ⟨c, hc, hclimb⟩ := hbelow id hin
      exact h.acyclic id (.tail' hclimb hc)
    · obtain ⟨c, hc, hclimb⟩ := hbelow a ha
      exact happart b hb (heq ▸ hclimb.tail hc)

theorem proper (hg : d.Holds p? g) : g.Proper := by
  induction g generalizing p? with
  | bare => trivial
  | tree id data below rest ihb ihr =>
    refine ⟨fun htext ↦ ?_, ihb hg.2.1, ihr hg.2.2⟩
    obtain ⟨s, rfl⟩ := htext
    have hnone := h.leaves id (by simp [isText, text?, data?, hg.1])
    exact eq_bare_of_tops (by simpa [Document.children, hg.1] using hnone)

theorem stands_top {top : NodeId} (hknown : d.node? top ≠ none) (htop : d.parent? top = none) :
    ∃ g, d.Stands g ∧ g.tops = [top] := by
  obtain ⟨sub, hsub, htops⟩ := h.exists_below hknown
  obtain ⟨⟨data, _, _⟩, hn⟩ := Option.ne_none_iff_exists'.1 hknown
  rw [Document.parent?, hn] at htop
  obtain rfl : _ = none := htop
  rw [Document.children, hn] at htops
  obtain rfl : sub.tops = _ := htops
  have hholds : d.Holds none (.single top data sub) := holds_single.2 ⟨hn, hsub⟩
  exact ⟨_, ⟨⟨top, data, sub, rfl⟩, hholds, h.nodup_order hholds (by simp), h.proper hholds⟩, rfl⟩

theorem forest : d.Forest where
  root := h.stands_top h.rooted h.topmost
  all id hid := by
    obtain ⟨top, hclimb, hknown, htop⟩ := h.exists_top hid
    obtain ⟨g, hg, htops⟩ := h.stands_top hknown htop
    have hin : top ∈ g.order := g.tops_sublist.subset (by rw [htops]; exact List.mem_singleton_self top)
    exact ⟨g, hg, h.mem_order_of_climbs hg.holds hin hclimb⟩

end WellFormed

/-! ### Links of a forest -/

theorem Stands.mem_chain {fs : List Frame} {data : NodeData} {sub : Grove} (h : d.Stands (plug fs (.single id data sub)))
    {a : NodeId} (ha : Relation.TransGen d.Climbs id a) : a ∈ chain fs := by
  induction ha with
  | single hp =>
    rw [Climbs, h.parent?] at hp
    exact List.mem_of_mem_head? hp
  | tail _ hstep ih =>
    obtain ⟨f, hf, rfl⟩ := List.mem_map.1 ih
    obtain ⟨inner, outer, rfl⟩ := List.append_of_mem hf
    rw [plug_append] at h
    have hup : d.Stands (plug outer (.single f.id f.data (f.left ++ plug inner (.single id data sub) ++ f.right))) := h
    rw [Climbs, hup.parent?] at hstep
    rw [chain, List.map_append, List.map_cons]
    exact List.mem_append_right _ (List.mem_cons_of_mem _ (List.mem_of_mem_head? hstep))

namespace Forest

variable (h : d.Forest)

include h

theorem exists_place (hid : d.node? id ≠ none) : ∃ sub data fs, d.Stands (plug fs (.single id data sub)) := by
  obtain ⟨g, hg, hin⟩ := h.all id hid
  obtain ⟨sub, data, fs, rfl⟩ := hg.exists_place hin
  exact ⟨sub, data, fs, hg⟩

theorem wellFormed : d.WellFormed where
  rooted := by
    obtain ⟨g, hg, htops⟩ := h.root
    exact hg.holds.known _ (g.tops_sublist.subset (by rw [htops]; exact List.mem_singleton_self _))
  topmost := by
    obtain ⟨g, hg, htops⟩ := h.root
    exact hg.holds.parent?_top _ (by rw [htops]; exact List.mem_singleton_self _)
  linked p c := by
    constructor
    · intro hc
      have hp : d.node? p ≠ none := fun hnone ↦ by simp [children, hnone] at hc
      obtain ⟨sub, data, fs, hg⟩ := h.exists_place hp
      rw [hg.children] at hc
      exact hg.below.parent?_top c hc
    · intro hp
      obtain ⟨g, hg, hin⟩ := h.all c (known_of_parent? hp)
      rcases hg.holds.parent?_mem c hin with ⟨-, hnone⟩ | ⟨q, -, hq, hc⟩
      · rw [hp] at hnone
        contradiction
      · obtain rfl : q = p := Option.some.inj (hq.symm.trans hp)
        exact hc
  distinct p := by
    by_cases hp : d.node? p = none
    · simp [children, hp]
    · obtain ⟨sub, data, fs, hg⟩ := h.exists_place hp
      rw [hg.children]
      have hparts := (List.nodup_append.1 hg.nodup_parts).2.1
      exact sub.tops_sublist.nodup (List.nodup_append.1 (List.nodup_cons.1 hparts).2).1
  acyclic id hcycle := by
    obtain ⟨p, hp, -⟩ := Relation.TransGen.head'_iff.1 hcycle
    obtain ⟨sub, data, fs, hg⟩ := h.exists_place (known_of_parent? hp)
    exact hg.notMem_chain (hg.mem_chain hcycle)
  leaves id htext := by
    have hid : d.node? id ≠ none := fun hnone ↦ by simp [isText, text?, data?, hnone] at htext
    obtain ⟨sub, data, fs, hg⟩ := h.exists_place hid
    have hdata : data.IsText := by
      rw [isText, text?, hg.data?] at htext
      cases data with
      | element => simp at htext
      | text s => exact ⟨s, rfl⟩
    have hsub := (proper_single.1 ((proper_plug (by simp)).1 hg.proper).2).1 hdata
    rw [hg.children, hsub, tops_bare]

theorem exists_root : ∃ g, d.Stands g ∧ g.tops = [d.root] ∧ d.descendants d.root = g.order := by
  obtain ⟨g, hg, htops⟩ := h.root
  obtain ⟨top, data, sub, rfl⟩ := hg.single
  obtain rfl : top = d.root := (List.cons.inj htops).1
  have hplace : d.Stands (plug [] (.single d.root data sub)) := hg
  exact ⟨_, hg, htops, by rw [hplace.descendants, order_single]⟩

theorem isAttached_iff_mem : d.isAttached id = true ↔ id ∈ d.descendants d.root := by
  obtain ⟨g, hg, htops, horder⟩ := h.exists_root
  have hroot : d.root ∈ g.order := g.tops_sublist.subset (by rw [htops]; exact List.mem_singleton_self _)
  rw [horder]
  refine ⟨fun hattached ↦ ?_, fun hin ↦ (hg.isAttached_iff h.wellFormed.topmost hin).2 htops⟩
  by_cases hid : d.node? id = none
  · -- an unknown node has no ancestors
    have hclimb := ancestors_unknown hid
    have hne : id ≠ d.root := fun heq ↦ h.wellFormed.rooted (heq ▸ hid)
    simp [isAttached, hclimb, hne] at hattached
  · obtain ⟨f, hf, hin⟩ := h.all id hid
    have htops' := (hf.isAttached_iff h.wellFormed.topmost hin).1 hattached
    have hroot' : d.root ∈ f.order := f.tops_sublist.subset (by rw [htops']; exact List.mem_singleton_self _)
    rwa [hg.unique hf hroot hroot']

end Forest

theorem wellFormed_iff_forest : d.WellFormed ↔ d.Forest := ⟨WellFormed.forest, Forest.wellFormed⟩

theorem Stands.descendants_root (h : d.Stands g) (htop : g.tops = [d.root]) : d.descendants d.root = g.order := by
  obtain ⟨top, data, sub, rfl⟩ := h.single
  obtain rfl : top = d.root := (List.cons.inj htop).1
  have hplace : d.Stands (plug [] (.single d.root data sub)) := h
  rw [hplace.descendants, order_single]

theorem Stands.wellFormed (h : d.Stands g) (htop : g.tops = [d.root]) (hall : ∀ i < d.size, d.handle i ∈ g.order) :
    d.WellFormed := by
  apply Forest.wellFormed
  refine ⟨⟨g, h, htop⟩, fun id hid ↦ ⟨g, h, ?_⟩⟩
  obtain ⟨n, hn⟩ := Option.ne_none_iff_exists'.1 hid
  have hhandle : id = d.handle id.index := NodeId.ext (document_eq hn) rfl
  rw [hhandle]
  exact hall _ (index_lt_size hn)

end Document

end Stencil
