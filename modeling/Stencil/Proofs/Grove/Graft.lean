import Stencil.Proofs.Grove.Forest
/-!
Trees put below nodes and taken away from them. What an edit does not touch stands as it stood, so a
forest stays one when the trees that an edit makes take the place of those it was made of.
-/

namespace Stencil

open Grove

namespace Document

variable {d e : Document} {f : Frame} {fs : List Frame} {a b g sub xsub : Grove} {id p x : NodeId} {data xdata : NodeData}
  {tops : List NodeId}

theorem Around.congr (h : d.Around tops fs) (hframe : ∀ id ∈ before fs ++ behind fs, e.node? id = d.node? id) :
    e.Around tops fs := by
  induction fs generalizing tops with
  | nil => trivial
  | cons f fs ih =>
    simp only [before, behind, List.forall_mem_append, List.forall_mem_cons] at hframe
    obtain ⟨⟨hbefore, hf, hleft⟩, hright, hbehind⟩ := hframe
    exact ⟨hf.trans h.1, h.2.1.congr hleft, h.2.2.1.congr hright,
      ih h.2.2.2 (List.forall_mem_append.2 ⟨hbefore, hbehind⟩)⟩

/-- Apart from the node at a place, the nodes of a tree stand before, below and behind it. -/
theorem ne_of_mem_parts (h : (plug fs (.single p data sub)).order.Nodup)
    (hid : id ∈ before fs ∨ id ∈ sub.order ∨ id ∈ behind fs) : id ≠ p := by
  rw [order_plug, order_single, List.append_assoc, List.cons_append, List.nodup_append] at h
  rintro rfl
  rcases hid with hid | hid
  · exact h.2.2 _ hid _ (List.mem_cons_self ..) rfl
  · exact (List.nodup_cons.1 h.2.1).1 (List.mem_append.2 hid)

theorem mem_order_parts : id ∈ (plug fs (.single p data sub)).order ↔
    id = p ∨ id ∈ before fs ∨ id ∈ sub.order ∨ id ∈ behind fs := by
  rw [order_plug, order_single]
  simp only [List.mem_append, List.mem_cons]
  tauto

/-- A tree stands again when the node at a place of it and what is below that node have changed. -/
theorem Around.stands (h : d.Around [p] fs) (hframe : ∀ id, id ∈ before fs ∨ id ∈ behind fs → e.node? id = d.node? id)
    (hnode : e.node? p = some ⟨data, (chain fs).head?, sub.tops⟩) (hbelow : e.Holds (some p) sub)
    (hnodup : (plug fs (.single p data sub)).order.Nodup) (hframes : ∀ f ∈ fs, f.Proper)
    (hproper : (Grove.single p data sub).Proper) : e.Stands (plug fs (.single p data sub)) where
  single := exists_single_plug ..
  holds := holds_plug.2 ⟨h.congr fun id hid ↦ hframe id (List.mem_append.1 hid), holds_single.2 ⟨hnode, hbelow⟩⟩
  nodup := hnodup
  proper := (proper_plug (by simp)).2 ⟨hframes, hproper⟩

theorem Stands.proper_frames (h : d.Stands (plug fs (.single p data sub))) : ∀ f ∈ fs, f.Proper :=
  ((proper_plug (by simp)).1 h.proper).1

theorem Stands.proper_at (h : d.Stands (plug fs (.single p data sub))) : (Grove.single p data sub).Proper :=
  ((proper_plug (by simp)).1 h.proper).2

/-! ### Forests that change in some trees -/

section Change

variable (old new : List Grove) (hold : ∀ o ∈ old, d.Stands o)
  (hframe : ∀ id, d.node? id ≠ none → (∀ o ∈ old, id ∉ o.order) → e.node? id = d.node? id)

include hold hframe

theorem Stands.stays (hg : d.Stands g) (hnot : g ∉ old) : e.Stands g := by
  refine hg.congr fun id hid ↦ hframe id (hg.holds.known id hid) fun o ho hin ↦ hnot ?_
  rwa [hg.unique (hold o ho) hid hin]

theorem Forest.change (h : d.Forest) (hserial : e.serial = d.serial) (hnew : ∀ n ∈ new, e.Stands n)
    (hcover : ∀ id, e.node? id ≠ none → (∃ n ∈ new, id ∈ n.order) ∨ d.node? id ≠ none ∧ ∀ o ∈ old, id ∉ o.order)
    (hroot : ∀ o ∈ old, o.tops = [d.root] → ∃ n ∈ new, n.tops = [d.root]) : e.Forest where
  root := by
    have hsame : e.root = d.root := by simp [Document.root, handle, hserial]
    obtain ⟨g, hg, htops⟩ := h.root
    by_cases hin : g ∈ old
    · obtain ⟨n, hn, hntops⟩ := hroot g hin htops
      exact ⟨n, hnew n hn, hsame ▸ hntops⟩
    · exact ⟨g, hg.stays old hold hframe hin, hsame ▸ htops⟩
  all id hid := by
    rcases hcover id hid with ⟨n, hn, hin⟩ | ⟨hknown, hout⟩
    · exact ⟨n, hnew n hn, hin⟩
    · obtain ⟨g, hg, hin⟩ := h.all id hknown
      exact ⟨g, hg.stays old hold hframe fun hgold ↦ hout g hgold hin, hin⟩

end Change

/-! ### New nodes and new contents -/

theorem Stands.create (d : Document) (data : NodeData) : (d.create data).2.Stands (.single d.fresh data .bare) where
  single := ⟨_, _, _, rfl⟩
  holds := holds_single.2 ⟨by rw [node?_create, if_pos rfl, tops_bare], trivial⟩
  nodup := by simp
  proper := proper_single.2 ⟨fun _ ↦ rfl, trivial⟩

theorem Forest.create (h : d.Forest) (data : NodeData) : (d.create data).2.Forest := by
  refine Forest.change [] [.single d.fresh data .bare] (by simp) (fun id hid _ ↦ ?_) h rfl ?_
    (fun id hid ↦ ?_) (by simp)
  · rw [node?_create, if_neg]
    rintro rfl
    exact hid (node?_fresh d)
  · simpa using Stands.create d data
  · by_cases hnew : id = d.fresh
    · exact .inl ⟨_, List.mem_singleton_self _, by simp [hnew]⟩
    · rw [node?_create, if_neg hnew] at hid
      exact .inr ⟨hid, by simp⟩

theorem Stands.relabel (h : d.Stands (plug fs (.single x data sub))) (hdata : xdata.IsText → data.IsText)
    (he : ∀ id, e.node? id = if id = x then some ⟨xdata, (chain fs).head?, sub.tops⟩ else d.node? id) :
    e.Stands (plug fs (.single x xdata sub)) := by
  have hstay : ∀ id, id ∈ before fs ∨ id ∈ sub.order ∨ id ∈ behind fs → e.node? id = d.node? id := fun id hid ↦ by
    rw [he, if_neg (ne_of_mem_parts h.nodup hid)]
  have hsub := Grove.proper_single.1 h.proper_at
  refine h.around.stands (fun id hid ↦ hstay id (by tauto)) (by rw [he, if_pos rfl])
    (h.below.congr fun id hid ↦ hstay id (.inr (.inl hid))) ?_ h.proper_frames
    (Grove.proper_single.2 ⟨fun ht ↦ hsub.1 (hdata ht), hsub.2⟩)
  have := h.nodup
  rwa [order_plug, order_single] at this ⊢

theorem Forest.relabel (h : d.Forest) (hserial : e.serial = d.serial) (hx : d.Stands (plug fs (.single x data sub)))
    (hdata : xdata.IsText → data.IsText)
    (he : ∀ id, e.node? id = if id = x then some ⟨xdata, (chain fs).head?, sub.tops⟩ else d.node? id) : e.Forest := by
  have hin : x ∈ (plug fs (.single x data sub)).order := by simp [order_plug]
  refine Forest.change [plug fs (.single x data sub)] [plug fs (.single x xdata sub)] (by simpa using hx)
    (fun id _ hout ↦ ?_) h hserial (by simpa using hx.relabel hdata he) (fun id hid ↦ ?_) (by simp [tops_plug])
  · rw [he, if_neg]
    rintro rfl
    exact hout _ (List.mem_singleton_self _) hin
  · by_cases hmem : id ∈ (plug fs (.single x data sub)).order
    · exact .inl ⟨_, List.mem_singleton_self _, by simpa [order_plug] using hmem⟩
    · have hne : id ≠ x := fun heq ↦ hmem (heq ▸ hin)
      rw [he, if_neg hne] at hid
      exact .inr ⟨hid, by simpa using hmem⟩

/-! ### Trees joined and parted -/

theorem Stands.graft (h : d.Stands (plug fs (.single p data (a ++ b)))) (hx : d.Stands (.single x xdata xsub))
    (hapart : x ∉ (plug fs (.single p data (a ++ b))).order) (helement : ¬data.IsText)
    (he : ∀ id, e.node? id = if id = p then some ⟨data, (chain fs).head?, a.tops ++ x :: b.tops⟩
      else if id = x then some ⟨xdata, some p, xsub.tops⟩ else d.node? id) :
    e.Stands (plug fs (.single p data (a ++ .single x xdata xsub ++ b))) := by
  -- the two trees share no node
  have hdisjoint : ∀ id ∈ (plug fs (.single p data (a ++ b))).order, id ∉ (Grove.single x xdata xsub).order :=
    fun id hid hin ↦ hapart (by rw [h.unique hx hid hin]; simp)
  have hstay : ∀ id, id ∈ before fs ∨ id ∈ (a ++ b).order ∨ id ∈ behind fs → e.node? id = d.node? id := fun id hid ↦ by
    have hmem : id ∈ (plug fs (.single p data (a ++ b))).order := mem_order_parts.2 (.inr hid)
    rw [he, if_neg (ne_of_mem_parts h.nodup hid), if_neg (show id ≠ x from fun heq ↦ hapart (heq ▸ hmem))]
  have hxp : x ≠ p := fun heq ↦ hapart (mem_order_parts.2 (.inl heq))
  have hbelow := holds_append.1 h.below
  have hsubs := (proper_append ..).1 (Grove.proper_single.1 h.proper_at).2
  refine h.around.stands (fun id hid ↦ hstay id (by tauto)) (by rw [he, if_pos rfl]; simp)
    (holds_append.2 ⟨holds_append.2 ⟨?_, holds_single.2 ⟨?_, ?_⟩⟩, ?_⟩) ?_ h.proper_frames ?_
  · exact hbelow.1.congr fun id hid ↦ hstay id (.inr (.inl (by simp [hid])))
  · rw [he, if_neg hxp, if_pos rfl]
  · refine (holds_single.1 hx.holds).2.congr fun id hid ↦ ?_
    have hnex : id ≠ x := ne_of_mem_parts (show (plug [] (.single x xdata xsub)).order.Nodup from hx.nodup) (.inr (.inl hid))
    have hnep : id ≠ p := by
      rintro rfl
      exact hdisjoint id (mem_order_parts.2 (.inl rfl)) (by simp [hid])
    rw [he, if_neg hnep, if_neg hnex]
  · exact hbelow.2.congr fun id hid ↦ hstay id (.inr (.inl (by simp [hid])))
  · have hperm : (plug fs (.single p data (a ++ .single x xdata xsub ++ b))).order.Perm
        ((plug fs (.single p data (a ++ b))).order ++ (Grove.single x xdata xsub).order) := by
      rw [List.perm_iff_count]
      intro id
      simp only [order_plug, order_single, order_append, List.count_append, List.count_cons]
      omega
    rw [hperm.nodup_iff, List.nodup_append]
    exact ⟨h.nodup, hx.nodup, fun id hid other hother heq ↦ hdisjoint id hid (heq ▸ hother)⟩
  · rw [Grove.proper_single, proper_append, proper_append]
    exact ⟨fun ht ↦ absurd ht helement, ⟨hsubs.1, hx.proper⟩, hsubs.2⟩

theorem Forest.graft (h : d.Forest) (hserial : e.serial = d.serial)
    (hp : d.Stands (plug fs (.single p data (a ++ b)))) (hx : d.Stands (.single x xdata xsub))
    (hapart : x ∉ (plug fs (.single p data (a ++ b))).order) (helement : ¬data.IsText) (hroot : x ≠ d.root)
    (he : ∀ id, e.node? id = if id = p then some ⟨data, (chain fs).head?, a.tops ++ x :: b.tops⟩
      else if id = x then some ⟨xdata, some p, xsub.tops⟩ else d.node? id) : e.Forest := by
  have hall : ∀ id, id ∈ (plug fs (.single p data (a ++ .single x xdata xsub ++ b))).order ↔
      id ∈ (plug fs (.single p data (a ++ b))).order ∨ id ∈ (Grove.single x xdata xsub).order := fun id ↦ by
    simp only [order_plug, order_single, order_append, List.mem_append, List.mem_cons]
    tauto
  refine Forest.change [plug fs (.single p data (a ++ b)), .single x xdata xsub]
    [plug fs (.single p data (a ++ .single x xdata xsub ++ b))] (by simpa using ⟨hp, hx⟩)
    (fun id _ hout ↦ ?_) h hserial (by simpa using hp.graft hx hapart helement he) (fun id hid ↦ ?_)
    (by simp [tops_plug, hroot])
  · simp only [List.mem_cons, List.not_mem_nil, or_false, forall_eq_or_imp, forall_eq] at hout
    rw [he, if_neg, if_neg]
    · rintro rfl
      exact hout.2 (by simp)
    · rintro rfl
      exact hout.1 (by simp [order_plug])
  · by_cases hmem : id ∈ (plug fs (.single p data (a ++ .single x xdata xsub ++ b))).order
    · exact .inl ⟨_, List.mem_singleton_self _, hmem⟩
    · rw [hall, not_or] at hmem
      have hnex : id ≠ x := fun heq ↦ hmem.2 (by simp [heq])
      have hnep : id ≠ p := fun heq ↦ hmem.1 (by simp [heq, order_plug])
      rw [he, if_neg hnep, if_neg hnex] at hid
      exact .inr ⟨hid, by simpa using hmem⟩

section Link

variable (h : d.Forest) (hp : d.Stands (plug fs (.single p data (a ++ b)))) (hx : d.Stands (.single x xdata xsub))
  (hapart : x ∉ (plug fs (.single p data (a ++ b))).order) (helement : ¬data.IsText)

include hp hx hapart helement

theorem Stands.checkInsertable (hroot : x ≠ d.root) : d.checkInsertable p x = .ok () := by
  have horphan : d.parent? x = none := hx.holds.parent?_top x (by simp)
  have hcontains : d.contains x p = false := by
    rw [← Bool.not_eq_true, hp.contains_iff]
    rintro (rfl | hin)
    · exact hapart (mem_order_parts.2 (.inl rfl))
    · exact hapart (mem_order_parts.2 (.inr (.inl (chain_subset_before fs _ hin))))
  have htext : d.isText p = false := by
    rw [isText, text?, hp.data?]
    cases data with
    | element => rfl
    | text s => exact absurd ⟨s, rfl⟩ helement
  simp [Document.checkInsertable, check_ok hp.node?, check_ok (holds_single.1 hx.holds).1, hroot, horphan, hcontains, htext,
    bind, Except.bind]

theorem Stands.link : (d.link p x (a.tops ++ x :: b.tops)).Stands (plug fs (.single p data (a ++ .single x xdata xsub ++ b))) ∧
    ∀ id, (d.link p x (a.tops ++ x :: b.tops)).node? id = if id = p then some ⟨data, (chain fs).head?, a.tops ++ x :: b.tops⟩
      else if id = x then some ⟨xdata, some p, xsub.tops⟩ else d.node? id := by
  have hne : x ≠ p := fun heq ↦ hapart (mem_order_parts.2 (.inl heq))
  have hnodes : ∀ id, (d.link p x (a.tops ++ x :: b.tops)).node? id =
      if id = p then some ⟨data, (chain fs).head?, a.tops ++ x :: b.tops⟩
      else if id = x then some ⟨xdata, some p, xsub.tops⟩ else d.node? id := fun id ↦ by
    rw [node?_link hp.node? hne, (holds_single.1 hx.holds).1]
    rfl
  exact ⟨hp.graft hx hapart helement hnodes, hnodes⟩

include h

theorem Forest.link (hroot : x ≠ d.root) : (d.link p x (a.tops ++ x :: b.tops)).Forest :=
  h.graft (by simp [Document.link]) hp hx hapart helement hroot (hp.link hx hapart helement).2

end Link

section Prune

variable (h : d.Stands (plug (f :: fs) (.single x xdata xsub)))
  (he : ∀ id, e.node? id = if id = x then some ⟨xdata, none, xsub.tops⟩
    else if id = f.id then some ⟨f.data, (chain fs).head?, f.left.tops ++ f.right.tops⟩ else d.node? id)

include h he

theorem Stands.prune : e.Stands (plug fs (.single f.id f.data (f.left ++ f.right))) ∧ e.Stands (.single x xdata xsub) := by
  have hperm : (plug (f :: fs) (.single x xdata xsub)).order.Perm
      ((plug fs (.single f.id f.data (f.left ++ f.right))).order ++ (Grove.single x xdata xsub).order) := by
    rw [List.perm_iff_count]
    intro id
    simp only [plug_cons, order_plug, order_single, order_append, List.count_append, List.count_cons]
    omega
  have hnodup := h.nodup
  rw [hperm.nodup_iff, List.nodup_append] at hnodup
  obtain ⟨hrest, hx, hdisjoint⟩ := hnodup
  -- nothing but the node and its parent changes
  have hother : ∀ id, id ≠ x → id ≠ f.id → e.node? id = d.node? id := fun id hidx hidf ↦ by
    rw [he, if_neg hidx, if_neg hidf]
  have hxf : x ≠ f.id := fun heq ↦ hdisjoint f.id (mem_order_parts.2 (.inl rfl)) x (by simp) heq.symm
  have hstay : ∀ id, id ∈ before fs ∨ id ∈ (f.left ++ f.right).order ∨ id ∈ behind fs → e.node? id = d.node? id :=
    fun id hid ↦ hother id (fun heq ↦ hdisjoint id (mem_order_parts.2 (.inr hid)) x (by simp) heq)
      (ne_of_mem_parts hrest hid)
  have hf := h.proper_frames f (List.mem_cons_self ..)
  refine ⟨h.around.2.2.2.stands (fun id hid ↦ hstay id (by tauto)) (by rw [he, if_neg hxf.symm, if_pos rfl]; simp) ?_ hrest
    (fun f' hf' ↦ h.proper_frames f' (List.mem_cons_of_mem _ hf')) (Grove.proper_single.2 ⟨fun ht ↦ absurd ht hf.element, ?_⟩),
    ⟨⟨_, _, _, rfl⟩, holds_single.2 ⟨by rw [he, if_pos rfl], ?_⟩, hx, h.proper_at⟩⟩
  · exact holds_append.2 ⟨h.around.2.1.congr fun id hid ↦ hstay id (.inr (.inl (by simp [hid]))),
      h.around.2.2.1.congr fun id hid ↦ hstay id (.inr (.inl (by simp [hid])))⟩
  · exact (proper_append ..).2 ⟨hf.left, hf.right⟩
  · refine h.below.congr fun id hid ↦ hother id (ne_of_mem_parts (show (plug [] (.single x xdata xsub)).order.Nodup from hx) (.inr (.inl hid))) ?_
    rintro rfl
    exact hdisjoint f.id (mem_order_parts.2 (.inl rfl)) f.id (by simp [hid]) rfl

theorem Forest.prune (hd : d.Forest) (hserial : e.serial = d.serial) : e.Forest := by
  have hall : ∀ id, id ∈ (plug (f :: fs) (.single x xdata xsub)).order ↔
      id ∈ (plug fs (.single f.id f.data (f.left ++ f.right))).order ∨ id ∈ (Grove.single x xdata xsub).order := fun id ↦ by
    simp only [plug_cons, order_plug, order_single, order_append, List.mem_append, List.mem_cons]
    tauto
  obtain ⟨hrest, hx⟩ := h.prune he
  refine Forest.change [plug (f :: fs) (.single x xdata xsub)]
    [plug fs (.single f.id f.data (f.left ++ f.right)), .single x xdata xsub] (by simpa using h)
    (fun id _ hout ↦ ?_) hd hserial (by simpa using ⟨hrest, hx⟩) (fun id hid ↦ ?_) (fun o ho htops ↦ ?_)
  · simp only [List.mem_singleton, forall_eq, hall, not_or] at hout
    rw [he, if_neg, if_neg]
    · rintro rfl
      exact hout.1 (by simp [order_plug])
    · rintro rfl
      exact hout.2 (by simp)
  · by_cases hmem : id ∈ (plug (f :: fs) (.single x xdata xsub)).order
    · rcases (hall id).1 hmem with hmem | hmem
      · exact .inl ⟨_, List.mem_cons_self .., hmem⟩
      · exact .inl ⟨_, List.mem_cons_of_mem _ (List.mem_singleton_self _), hmem⟩
    · have hout := hmem
      rw [hall, not_or] at hout
      have hnex : id ≠ x := fun heq ↦ hout.2 (by simp [heq])
      have hnef : id ≠ f.id := fun heq ↦ hout.1 (by simp [heq, order_plug])
      rw [he, if_neg hnex, if_neg hnef] at hid
      exact .inr ⟨hid, by simpa using hmem⟩
  · obtain rfl := List.mem_singleton.1 ho
    refine ⟨_, List.mem_cons_self .., ?_⟩
    rw [← htops, tops_plug, tops_plug, summit_cons]

end Prune

theorem Stands.detach (hd : d.Forest) (h : d.Stands (plug (f :: fs) (.single x xdata xsub))) : ∃ e, d.detach x = .ok e ∧
    e.Forest ∧ e.Stands (plug fs (.single f.id f.data (f.left ++ f.right))) ∧ Grows d e := by
  obtain ⟨hparent, hchildren, -⟩ := h.siblings
  have hne : x ≠ f.id := fun heq ↦ h.notMem_chain (heq ▸ List.mem_cons_self ..)
  have hroot : x ≠ d.root := fun heq ↦ by
    rw [heq, hd.wellFormed.topmost] at hparent
    contradiction
  have hnodup := hd.wellFormed.distinct f.id
  rw [hchildren] at hnodup
  have hnodes := node?_release h.around.1 h.node? hne
  rw [List.append_assoc, List.singleton_append, filter_append_ne hnodup] at hnodes
  have hgrows : Grows d ((d.modify f.id fun n ↦ { n with children := n.children.filter (· ≠ x) }).modify x fun n ↦
    { n with parent? := none }) := (Grows.modify _ _ _).trans (Grows.modify _ _ _)
  refine ⟨_, ?_, Forest.prune h hnodes hd hgrows.serial, (Stands.prune h hnodes).1, hgrows⟩
  simp [Document.detach, check_ok h.node?, hroot, hparent, bind, Except.bind]

end Document

end Stencil
