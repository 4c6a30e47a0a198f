import Stencil.Run.Area
import Stencil.Proofs.Attempt
import Stencil.Proofs.Grove.Graft
/-!
Two nodes of a tree, neither above the other. They stand below two children of the lowest node above
both, and an area between them is made of these children and of what stands between them.
-/

namespace Stencil

open Grove

namespace Document

variable {d : Document} {inner outer gs : List Frame} {p x y : NodeId} {pdata xdata ydata : NodeData}
  {a b c xsub ysub : Grove}

/-- A tree with two nodes below different children of a third one. -/
abbrev fork (outer : List Frame) (p : NodeId) (pdata : NodeData) (a px b py c : Grove) : Grove :=
  plug outer (.single p pdata (a ++ px ++ b ++ py ++ c))

theorem commonAncestor?_of {xs ys zs : List NodeId} (hx : d.ancestors x = xs ++ p :: zs) (hy : d.ancestors y = ys ++ p :: zs)
    (hne : ∀ id ∈ y :: ys, id ∉ x :: (xs ++ p :: zs)) : d.commonAncestor? x y = some p := by
  rw [commonAncestor?, hx, hy, ← List.cons_append (a := y), List.find?_append, List.find?_eq_none.2 (by simpa using hne)]
  simp

section Fork

variable (hroot : d.parent? d.root = none)
  (h : d.Stands (fork outer p pdata a (plug inner (.single x xdata xsub)) b (plug gs (.single y ydata ysub)) c))

include h

theorem Stands.fork_left : d.Stands (plug (inner ++ ⟨p, pdata, a, b ++ plug gs (.single y ydata ysub) ++ c⟩ :: outer)
    (.single x xdata xsub)) := by
  rw [plug_append, plug_cons]
  simpa only [fork, append_assoc] using h

theorem Stands.fork_right : d.Stands (plug (gs ++ ⟨p, pdata, a ++ plug inner (.single x xdata xsub) ++ b, c⟩ :: outer)
    (.single y ydata ysub)) := by
  rw [plug_append]
  exact h

theorem Stands.fork_child : d.Stands (plug (⟨p, pdata, a, b ++ plug gs (.single y ydata ysub) ++ c⟩ :: outer)
    (plug inner (.single x xdata xsub))) ∧
    d.Stands (plug (⟨p, pdata, a ++ plug inner (.single x xdata xsub) ++ b, c⟩ :: outer) (plug gs (.single y ydata ysub))) := by
  have hl := h.fork_left
  have hr := h.fork_right
  rw [plug_append] at hl hr
  exact ⟨hl, hr⟩

theorem Stands.fork_apart : (∀ id ∈ y :: chain gs, id ∉ x :: (chain inner ++ p :: chain outer)) ∧
    ∀ id ∈ x :: chain inner, id ∉ y :: (chain gs ++ p :: chain outer) := by
  have hl := h.fork_left
  have hparts := List.nodup_append.1 hl.nodup_parts
  -- what is on the way to the right is behind the left, what is on the way to the left is not
  have hright : ∀ id ∈ y :: chain gs, id ∈ behind (inner ++ ⟨p, pdata, a, b ++ plug gs (.single y ydata ysub) ++ c⟩ :: outer) :=
    fun id hid ↦ by
      rw [behind_append, behind, order_append, order_append]
      simp [chain_subset_order hid]
  have hfirst : ∀ id ∈ y :: chain gs, id ∉ x :: (chain inner ++ p :: chain outer) := fun id hid hin ↦ by
    have hbehind := hright id hid
    rcases List.mem_cons.1 hin with rfl | hin
    · exact (List.nodup_cons.1 hparts.2.1).1 (List.mem_append_right _ hbehind)
    · refine hparts.2.2 id (chain_subset_before _ id ?_) id (List.mem_cons_of_mem _ (List.mem_append_right _ hbehind)) rfl
      simpa [chain] using hin
  refine ⟨hfirst, fun id hid hin ↦ ?_⟩
  rw [← List.cons_append, List.mem_append] at hin
  rcases hin with hin | hin
  · refine hfirst id hin ?_
    rw [← List.cons_append]
    exact List.mem_append_left _ hid
  · have hnotMem := hl.notMem_chain
    have hnodup := hl.nodup_chain
    rw [chain, List.map_append, List.map_cons] at hnotMem hnodup
    rcases List.mem_cons.1 hid with rfl | hid
    · exact hnotMem (List.mem_append_right _ hin)
    · exact (List.nodup_append.1 hnodup).2.2 id hid id hin rfl

theorem Stands.fork_ancestors : d.ancestors x = chain inner ++ p :: chain outer ∧ d.ancestors y = chain gs ++ p :: chain outer := by
  rw [h.fork_left.ancestors, h.fork_right.ancestors]
  simp [chain]

include hroot

theorem Stands.fork_ancestorOf (htop : (fork outer p pdata a (plug inner (.single x xdata xsub)) b (plug gs (.single y ydata ysub)) c).tops = [d.root]) :
    Area.ancestorOf d x y = .ok p ∧ Area.ancestorOf d y x = .ok p := by
  obtain ⟨hx, hy⟩ := h.fork_ancestors
  obtain ⟨hapart, hapart'⟩ := h.fork_apart
  have hattached : d.isAttached p = true := (h.isAttached_iff hroot (by simp [fork, order_plug])).2 htop
  have hne : x ≠ y := fun heq ↦ hapart y (by simp) (by simp [heq])
  have hpx : p ≠ x := fun heq ↦ h.fork_left.notMem_chain (by simp [chain, heq])
  have hpy : p ≠ y := fun heq ↦ h.fork_right.notMem_chain (by simp [chain, heq])
  simp [Area.ancestorOf, hne, hne.symm, commonAncestor?_of hx hy hapart, commonAncestor?_of hy hx hapart', hattached, hpx, hpy]

/-- The area between the nodes of a fork, from the left one to the right one; there is none the
other way round. -/
theorem Stands.fork_resolve (htop : (fork outer p pdata a (plug inner (.single x xdata xsub)) b (plug gs (.single y ydata ysub)) c).tops = [d.root]) :
    Area.resolve d x y = .ok ⟨p, x, y, summit inner x, summit gs y,
      .ofEnds a.tops.length (a.tops.length + 1 + b.tops.length)⟩ ∧ Area.resolve d y x = .error .reversed := by
  obtain ⟨hxy, hyx⟩ := h.fork_ancestorOf hroot htop
  have hfirst := h.fork_left.ancestorChild?
  have hlast := h.fork_right.ancestorChild?
  obtain ⟨hl, hr⟩ := h.fork_child
  obtain ⟨ldata, lsub, hleq⟩ := exists_summit inner x xdata xsub
  obtain ⟨rdata, rsub, hreq⟩ := exists_summit gs y ydata ysub
  rw [hleq] at hl hr
  rw [hreq] at hl hr
  have hstart := hl.indexInParent?
  have hstop := hr.indexInParent?
  simp only [tops_append, tops_single, List.length_append, List.length_singleton] at hstart hstop
  constructor
  · simp [Area.resolve, hxy, hfirst, hlast, hstart, hstop, bind, Except.bind, Nat.add_assoc]
  · simp [Area.resolve, hyx, hfirst, hlast, hstart, hstop, bind, Except.bind, Nat.add_assoc]

end Fork

theorem Stands.bare_of_text {fs : List Frame} (h : d.Stands (plug fs (.single x xdata xsub))) (hx : d.isText x = true) : xsub = bare := by
  refine (Grove.proper_single.1 h.proper_at).1 ?_
  rw [isText, text?, h.data?] at hx
  cases xdata with
  | element => simp at hx
  | text s => exact ⟨s, rfl⟩

theorem split_unique {l₁ l₂ r₁ r₂ : List NodeId} (h : l₁ ++ x :: r₁ = l₂ ++ x :: r₂) (hnodup : (l₁ ++ x :: r₁).Nodup) :
    l₁ = l₂ ∧ r₁ = r₂ := by
  have hx : x ∉ l₁ ∧ x ∉ r₁ := by
    rw [List.nodup_append] at hnodup
    exact ⟨fun hin ↦ hnodup.2.2 x hin x (List.mem_cons_self ..) rfl, (List.nodup_cons.1 hnodup.2.1).1⟩
  obtain ⟨hl, -, hr⟩ := (List.append_cons_inj_of_notMem hx.1 hx.2).1 h
  exact ⟨hl, hr⟩

/-- Two texts of a tree, one before the other, stand at a fork. -/
theorem Stands.exists_fork {g : Grove} {xs ys zs : List NodeId} (h : d.Stands g) (horder : g.order = xs ++ x :: (ys ++ y :: zs))
    (hx : d.isText x = true) (hy : d.isText y = true) : ∃ outer p pdata a inner xdata b gs ydata c,
      g = fork outer p pdata a (plug inner (.single x xdata bare)) b (plug gs (.single y ydata bare)) c ∧
      xs = before outer ++ p :: (a.order ++ before inner) ∧ zs = behind gs ++ c.order ++ behind outer := by
  have hnodup := h.nodup
  obtain ⟨xsub, xdata, fs, rfl⟩ := h.exists_place (show x ∈ g.order by rw [horder]; simp)
  obtain rfl := h.bare_of_text hx
  rw [horder] at hnodup
  rw [order_plug, order_single, order_bare, List.append_assoc, List.singleton_append] at horder
  obtain ⟨hxs, hbehind⟩ := split_unique horder.symm hnodup
  obtain ⟨inner, outer, f, rfl, hin⟩ := exists_of_mem_behind (show y ∈ behind fs by rw [← hbehind]; simp)
  obtain ⟨b, c, ysub, ydata, gs, hright⟩ := Grove.exists_place hin
  have hfork : plug (inner ++ f :: outer) (.single x xdata bare) =
      fork outer f.id f.data f.left (plug inner (.single x xdata bare)) b (plug gs (.single y ydata ysub)) c := by
    rw [plug_append, plug_cons, hright]
    simp only [fork, append_assoc]
  rw [hfork] at h
  obtain rfl := h.fork_right.bare_of_text hy
  refine ⟨outer, f.id, f.data, f.left, inner, xdata, b, gs, ydata, c, hfork, ?_, ?_⟩
  · rw [hxs, before_append, before, List.append_assoc, List.cons_append]
  · have hzs : ys ++ y :: zs = (behind inner ++ b.order ++ before gs) ++ y :: (behind gs ++ c.order ++ behind outer) := by
      rw [hbehind, behind_append, behind, hright]
      simp [order_plug]
    exact (split_unique hzs ((List.nodup_append.1 hnodup).2.1.of_cons)).2

end Document

end Stencil
