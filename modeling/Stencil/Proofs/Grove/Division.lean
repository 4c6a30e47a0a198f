import Stencil.Proofs.Grove.Graft
/-!
Trees divided at a node. What stands on one side of the way down to the node is moved, level by
level, into new elements that hold what the elements of the way hold.
-/

namespace Stencil

open Grove

namespace Document

variable {d e : Document} {f : Frame} {fs outer : List Frame} {a b c g sub : Grove} {id p x y shell : NodeId}
  {data xdata : NodeData} {side : Side}

/-! ### Sides -/

/-- What stands on a side, and the rest. -/
def Side.lay {α : Type} [Append α] (side : Side) (a b : α) : α :=
  match side with
  | .before => a ++ b
  | .after => b ++ a

def Side.of (side : Side) (f : Frame) : Grove :=
  match side with
  | .before => f.left
  | .after => f.right

def Side.clear (side : Side) (f : Frame) : Frame :=
  match side with
  | .before => { f with left := bare }
  | .after => { f with right := bare }

@[simp] theorem Side.clear_id (side : Side) (f : Frame) : (side.clear f).id = f.id := by cases side <;> rfl

@[simp] theorem Side.clear_data (side : Side) (f : Frame) : (side.clear f).data = f.data := by cases side <;> rfl

@[simp] theorem tops_lay (side : Side) (a b : Grove) : (side.lay a b).tops = side.lay a.tops b.tops := by
  cases side <;> exact tops_append ..

theorem order_lay (side : Side) (a b : Grove) : (side.lay a b).order = side.lay a.order b.order := by
  cases side <;> exact order_append ..

theorem mem_lay {α : Type} {x : α} {l m : List α} : x ∈ side.lay l m ↔ x ∈ l ∨ x ∈ m := by
  cases side
  · exact List.mem_append
  · exact List.mem_append.trans or_comm

theorem lay_eq_nil {α : Type} {l m : List α} : side.lay l m = [] ↔ l = [] ∧ m = [] := by
  cases side
  · exact List.append_eq_nil_iff
  · exact List.append_eq_nil_iff.trans and_comm

theorem holds_lay {p? : Option NodeId} : d.Holds p? (side.lay a b) ↔ d.Holds p? a ∧ d.Holds p? b := by
  cases side
  · exact holds_append
  · exact holds_append.trans and_comm

theorem proper_lay : (side.lay a b).Proper ↔ a.Proper ∧ b.Proper := by
  cases side
  · exact proper_append ..
  · exact (proper_append ..).trans and_comm

theorem lay_of_clear (side : Side) (f : Frame) (g : Grove) :
    side.lay (side.of f) ((side.clear f).left ++ g ++ (side.clear f).right) = f.left ++ g ++ f.right := by
  cases side
  · exact (append_assoc ..).symm
  · exact congrArg (· ++ f.right) (append_bare _)

theorem gather_eq (side : Side) (siblings : List NodeId) (carried : Option NodeId) :
    side.gather siblings carried = side.lay siblings carried.toList := by
  cases side <;> rfl

theorem cut_eq (side : Side) {f : Frame} (h : (f.left.tops ++ x :: f.right.tops).Nodup) :
    side.cut x (f.left.tops ++ x :: f.right.tops) =
      ((side.of f).tops, (side.clear f).left.tops ++ x :: (side.clear f).right.tops) := by
  have hx : x ∉ f.left.tops := fun hin ↦ (List.nodup_append.1 h).2.2 _ hin _ (List.mem_cons_self ..) rfl
  cases side
  · rw [Side.cut, takeWhile_ne hx, dropWhile_ne hx]
    rfl
  · rw [Side.cut, takeWhile_ne hx, dropWhile_ne hx]
    rfl

/-! ### Nodes moved into a new element -/

theorem node?_moveOut {moved children : List NodeId} {p? : Option NodeId} (kept : List NodeId) (hp : d.node? p = some ⟨data, p?, children⟩)
    (hnodup : moved.Nodup) (hout : p ∉ moved) (hknown : ∀ c ∈ moved, d.node? c ≠ none) :
    (d.moveOut p moved kept).1 = d.fresh ∧ ∀ id, (d.moveOut p moved kept).2.node? id =
      if id = d.fresh then some ⟨data, none, moved⟩
      else if id ∈ moved then (d.node? id).map fun n ↦ { n with parent? := some d.fresh }
      else if id = p then some ⟨data, p?, kept⟩
      else d.node? id := by
  have hdata : (d.data? p).getD (.text "") = data := by simp [data?, hp]
  have hfresh : (d.modify p fun n ↦ { n with children := kept }).fresh = d.fresh := by simp [fresh, handle]
  have hfreshmoved : d.fresh ∉ moved := fun hin ↦ hknown _ hin (node?_fresh d)
  refine ⟨hfresh, fun id ↦ ?_⟩
  simp only [moveOut, hdata, create_fst, hfresh]
  by_cases hid : id = d.fresh
  · subst hid
    rw [node?_modify_self, node?_foldl_modify _ _ hnodup, if_neg hfreshmoved, node?_create, hfresh, if_pos rfl,
      if_pos rfl]
    rfl
  · rw [node?_modify_of_ne hid, node?_foldl_modify _ _ hnodup, node?_create, hfresh, if_neg hid, if_neg hid]
    by_cases hm : id ∈ moved
    · have hne : id ≠ p := fun heq ↦ hout (heq ▸ hm)
      rw [if_pos hm, if_pos hm, node?_modify_of_ne hne]
    · rw [if_neg hm, if_neg hm]
      split
      · next heq =>
        subst heq
        rw [node?_modify_self, hp]
        rfl
      · next hne => rw [node?_modify_of_ne hne]

theorem moveOut_grows (d : Document) (p : NodeId) (moved kept : List NodeId) : Grows d (d.moveOut p moved kept).2 := by
  simp only [moveOut]
  exact ((Grows.modify _ _ _).trans (Grows.create _ _)).trans ((foldl_modify_grows _ _).trans (Grows.modify _ _ _))

/-- Trees whose topmost nodes get another parent. -/
theorem Holds.adopt {p? q? : Option NodeId} (h : d.Holds p? g) (hnodup : g.order.Nodup)
    (htops : ∀ id ∈ g.tops, e.node? id = (d.node? id).map fun n ↦ { n with parent? := q? })
    (hrest : ∀ id ∈ g.order, id ∉ g.tops → e.node? id = d.node? id) : e.Holds q? g := by
  induction g with
  | bare => trivial
  | tree id data below rest _ ih =>
    rw [order, List.nodup_cons, List.nodup_append, List.mem_append, not_or] at hnodup
    obtain ⟨⟨hbelow, hid⟩, -, hnodup, hdisjoint⟩ := hnodup
    have hout : ∀ x ∈ below.order, x ∉ (Grove.tree id data below rest).tops := fun x hx hin ↦ by
      rcases List.mem_cons.1 hin with rfl | hin
      · exact hbelow hx
      · exact hdisjoint x hx x (rest.tops_sublist.subset hin) rfl
    refine ⟨by rw [htops id (List.mem_cons_self ..), h.1]; rfl, h.2.1.congr fun x hx ↦ ?_, ih h.2.2 hnodup ?_ ?_⟩
    · exact hrest x (List.mem_cons_of_mem _ (List.mem_append_left _ hx)) (hout x hx)
    · exact fun x hx ↦ htops x (List.mem_cons_of_mem _ hx)
    · refine fun x hx hin ↦ hrest x (List.mem_cons_of_mem _ (List.mem_append_right _ hx)) fun htop ↦ ?_
      rcases List.mem_cons.1 htop with rfl | htop
      · exact hid hx
      · exact hin htop

/-- A frame divided: the trees on a side, and the tree without them. -/
theorem perm_clear (side : Side) (f : Frame) (fs : List Frame) (g : Grove) :
    (plug (f :: fs) g).order.Perm ((plug (side.clear f :: fs) g).order ++ (side.of f).order) := by
  rw [List.perm_iff_count]
  intro id
  cases side <;>
  · simp only [plug_cons, order_plug, order_single, order_append, List.count_append, List.count_cons, Side.clear, Side.of,
      order_bare, List.count_nil]
    omega

/-- The trees on a side of the way down move, together with a tree carried up, into a new element. -/
theorem Stands.moveOut (side : Side) (h : d.Stands (plug (f :: fs) (.single x xdata sub))) (hc : c = bare ∨ d.Stands c)
    (hapart : ∀ id ∈ c.order, id ∉ (plug (f :: fs) (.single x xdata sub)).order) :
    ∃ e, d.moveOut f.id (side.lay (side.of f).tops c.tops)
        ((side.clear f).left.tops ++ x :: (side.clear f).right.tops) = (d.fresh, e) ∧
      e.Stands (plug (side.clear f :: fs) (.single x xdata sub)) ∧
      e.Stands (.single d.fresh f.data (side.lay (side.of f) c)) ∧ Grows d e ∧
      ∀ id, id ≠ d.fresh → id ∉ (plug (f :: fs) (.single x xdata sub)).order → id ∉ c.order → e.node? id = d.node? id := by
  have hperm := perm_clear side f fs (.single x xdata sub)
  have hnodup := h.nodup
  rw [hperm.nodup_iff, List.nodup_append] at hnodup
  obtain ⟨hrest, hof, hdisjoint⟩ := hnodup
  have hin : ∀ id, id ∈ (plug (f :: fs) (.single x xdata sub)).order ↔
      id ∈ (plug (side.clear f :: fs) (.single x xdata sub)).order ∨ id ∈ (side.of f).order := fun id ↦ by
    rw [hperm.mem_iff, List.mem_append]
  have hcholds : d.Holds none c := hc.elim (fun heq ↦ heq ▸ trivial) Stands.holds
  have hcnodup : c.order.Nodup := hc.elim (fun heq ↦ heq ▸ List.nodup_nil) Stands.nodup
  -- the rest of the tree, seen from the node that is left
  let kept := (side.clear f).left ++ .single x xdata sub ++ (side.clear f).right
  have hplug : plug (side.clear f :: fs) (.single x xdata sub) = plug fs (.single f.id f.data kept) := by
    rw [plug_cons, side.clear_id, side.clear_data]
  have hfin : f.id ∈ (plug (side.clear f :: fs) (.single x xdata sub)).order := by
    rw [hplug]
    exact mem_order_parts.2 (.inl rfl)
  have hbelow : d.Holds (some f.id) (side.of f) ∧ d.Holds (some f.id) kept := by
    have hup : d.Stands (plug fs (.single f.id f.data (f.left ++ .single x xdata sub ++ f.right))) := h
    have := hup.below
    rwa [← lay_of_clear side, holds_lay] at this
  have hproper : (side.of f).Proper ∧ kept.Proper := by
    have hup : d.Stands (plug fs (.single f.id f.data (f.left ++ .single x xdata sub ++ f.right))) := h
    have := (Grove.proper_single.1 hup.proper_at).2
    rwa [← lay_of_clear side, proper_lay] at this
  -- what moves is apart from the node that it leaves
  have hmoved : (side.lay (side.of f).tops c.tops).Nodup := by
    have hlists : ((side.of f).order ++ c.order).Nodup := by
      rw [List.nodup_append]
      exact ⟨hof, hcnodup, fun a ha b hb heq ↦ hapart b hb ((hin b).2 (.inr (heq ▸ ha)))⟩
    have hsub := ((side.of f).tops_sublist.append c.tops_sublist).nodup hlists
    cases side
    · exact hsub
    · exact List.nodup_append_comm.1 hsub
  have hout : ∀ id ∈ (plug (side.clear f :: fs) (.single x xdata sub)).order, id ∉ side.lay (side.of f).tops c.tops := by
    intro id hid hm
    rcases mem_lay.1 hm with hm | hm
    · exact hdisjoint id hid id ((side.of f).tops_sublist.subset hm) rfl
    · exact hapart id (c.tops_sublist.subset hm) ((hin id).2 (.inl hid))
  have hknown : ∀ id ∈ side.lay (side.of f).tops c.tops, d.node? id ≠ none := by
    intro id hm
    rcases mem_lay.1 hm with hm | hm
    · exact hbelow.1.known id ((side.of f).tops_sublist.subset hm)
    · exact hcholds.known id (c.tops_sublist.subset hm)
  obtain ⟨hfresh, hnodes⟩ := node?_moveOut ((side.clear f).left.tops ++ x :: (side.clear f).right.tops)
    h.around.1 hmoved (hout _ hfin) hknown
  have hne : ∀ id, d.node? id ≠ none → id ≠ d.fresh := fun id hid heq ↦ hid (heq ▸ node?_fresh d)
  have hstay : ∀ id, d.node? id ≠ none → id ∉ side.lay (side.of f).tops c.tops → id ≠ f.id →
      (d.moveOut f.id (side.lay (side.of f).tops c.tops)
        ((side.clear f).left.tops ++ x :: (side.clear f).right.tops)).2.node? id = d.node? id := fun id hid hm hidf ↦ by
    rw [hnodes, if_neg (hne id hid), if_neg hm, if_neg hidf]
  have hadopt : ∀ id ∈ side.lay (side.of f).tops c.tops, (d.moveOut f.id (side.lay (side.of f).tops c.tops)
      ((side.clear f).left.tops ++ x :: (side.clear f).right.tops)).2.node? id =
        (d.node? id).map fun n ↦ { n with parent? := some d.fresh } := fun id hm ↦ by
    rw [hnodes, if_neg (hne id (hknown id hm)), if_pos hm]
  refine ⟨_, Prod.ext hfresh rfl, ?_, ?_, moveOut_grows .., fun id hid hT hC ↦ ?_⟩
  · rw [hplug] at hrest hin hout ⊢
    have hsame : ∀ id, id ∈ before fs ∨ id ∈ kept.order ∨ id ∈ behind fs →
        (d.moveOut f.id (side.lay (side.of f).tops c.tops)
          ((side.clear f).left.tops ++ x :: (side.clear f).right.tops)).2.node? id = d.node? id := fun id hid ↦ by
      have hmem : id ∈ (plug fs (.single f.id f.data kept)).order := mem_order_parts.2 (.inr hid)
      exact hstay id (h.holds.known id ((hin id).2 (.inl hmem))) (hout id hmem) (ne_of_mem_parts hrest hid)
    refine h.around.2.2.2.stands (fun id hid ↦ hsame id (by tauto)) ?_
      (hbelow.2.congr fun id hid ↦ hsame id (.inr (.inl hid))) hrest
      (fun f' hf' ↦ h.proper_frames f' (List.mem_cons_of_mem _ hf')) (Grove.proper_single.2 ⟨fun ht ↦ ?_, hproper.2⟩)
    · rw [hnodes, if_neg (hne _ (by simp [h.around.1])), if_neg (hout _ (mem_order_parts.2 (.inl rfl))), if_pos rfl]
      simp [kept]
    · exact absurd ht (h.proper_frames f (List.mem_cons_self ..)).element
  · have hofin : ∀ id ∈ (side.of f).order, id ≠ f.id ∧ id ∉ c.order := fun id hid ↦
      ⟨fun heq ↦ hdisjoint f.id hfin id hid heq.symm, fun hc ↦ hapart id hc ((hin id).2 (.inr hid))⟩
    have hcin : ∀ id ∈ c.order, id ≠ f.id ∧ id ∉ (side.of f).order := fun id hid ↦
      ⟨fun heq ↦ hapart id hid ((hin id).2 (.inl (heq ▸ hfin))), fun ho ↦ hapart id hid ((hin id).2 (.inr ho))⟩
    refine ⟨⟨_, _, _, rfl⟩, holds_single.2 ⟨by rw [hnodes, if_pos rfl, tops_lay], holds_lay.2 ⟨?_, ?_⟩⟩, ?_,
      Grove.proper_single.2 ⟨fun ht ↦ ?_, proper_lay.2 ⟨hproper.1, hc.elim (fun heq ↦ heq ▸ trivial) Stands.proper⟩⟩⟩
    · refine hbelow.1.adopt hof (fun id hid ↦ hadopt id (mem_lay.2 (.inl hid))) fun id hid htop ↦ ?_
      refine hstay id (hbelow.1.known id hid) (fun hm ↦ (mem_lay.1 hm).elim htop fun hm ↦ ?_) (hofin id hid).1
      exact (hofin id hid).2 (c.tops_sublist.subset hm)
    · refine hcholds.adopt hcnodup (fun id hid ↦ hadopt id (mem_lay.2 (.inr hid))) fun id hid htop ↦ ?_
      refine hstay id (hcholds.known id hid) (fun hm ↦ (mem_lay.1 hm).elim (fun hm ↦ ?_) htop) (hcin id hid).1
      exact (hcin id hid).2 ((side.of f).tops_sublist.subset hm)
    · rw [order_single, order_lay, List.nodup_cons, mem_lay, not_or]
      refine ⟨⟨fun hid ↦ hne _ (hbelow.1.known _ hid) rfl, fun hid ↦ hne _ (hcholds.known _ hid) rfl⟩, ?_⟩
      have hall : ((side.of f).order ++ c.order).Nodup :=
        List.nodup_append.2 ⟨hof, hcnodup, fun a ha b hb heq ↦ (hofin a ha).2 (heq ▸ hb)⟩
      cases side
      · exact hall
      · exact List.nodup_append_comm.1 hall
    · exact absurd ht (h.proper_frames f (List.mem_cons_self ..)).element
  · have hm : id ∉ side.lay (side.of f).tops c.tops := fun hm ↦ by
      rcases mem_lay.1 hm with hm | hm
      · exact hT ((hin id).2 (.inr ((side.of f).tops_sublist.subset hm)))
      · exact hC (c.tops_sublist.subset hm)
    have hidf : id ≠ f.id := fun heq ↦ hT ((hin id).2 (.inl (heq ▸ hfin)))
    rw [hnodes, if_neg hid, if_neg hm, if_neg hidf]

/-- What the shells of a division hold, level by level; `c` is carried up from below. -/
inductive Parts (side : Side) (d : Document) : List Frame → Grove → Grove → Prop where
  | done {c : Grove} : Parts side d [] c c
  | pass {f : Frame} {fs : List Frame} {p : Grove} : side.of f = bare → Parts side d fs bare p → Parts side d (f :: fs) bare p
  | move {f : Frame} {fs : List Frame} {c p : Grove} (shell : NodeId) : side.lay (side.of f) c ≠ bare → d.node? shell = none →
      Parts side d fs (single shell f.data (side.lay (side.of f) c)) p → Parts side d (f :: fs) c p

theorem Parts.mono {q : Grove} (h : Parts side e fs c q) (hgrows : Grows d e) : Parts side d fs c q := by
  induction h with
  | done => exact .done
  | pass hof _ ih => exact .pass hof ih
  | move shell hsome hshell _ ih => exact .move shell hsome (hgrows.unknown hshell) ih

theorem Parts.new {q : Grove} (h : Parts side d fs c q) (hc : ∀ id ∈ c.tops, d.node? id = none) :
    ∀ id ∈ q.tops, d.node? id = none := by
  induction h with
  | done => exact hc
  | pass _ _ ih => exact ih hc
  | move shell _ hshell _ ih => exact ih (by simpa using hshell)

theorem Forest.moveOut (hd : d.Forest) (h : d.Stands (plug (f :: fs) (.single x xdata sub))) (hc : c = bare ∨ d.Stands c)
    (hapart : ∀ id ∈ c.order, id ∉ (plug (f :: fs) (.single x xdata sub)).order) (hgrows : Grows d e)
    (hrest : e.Stands (plug (side.clear f :: fs) (.single x xdata sub)))
    (hshell : e.Stands (.single d.fresh f.data (side.lay (side.of f) c)))
    (hstay : ∀ id, id ≠ d.fresh → id ∉ (plug (f :: fs) (.single x xdata sub)).order → id ∉ c.order →
      e.node? id = d.node? id) (hroot : c.tops ≠ [d.root]) : e.Forest := by
  have hperm := perm_clear side f fs (.single x xdata sub)
  have hne : ∀ id, d.node? id ≠ none → id ≠ d.fresh := fun id hid heq ↦ hid (heq ▸ node?_fresh d)
  have hnew : ∀ n ∈ [plug (side.clear f :: fs) (.single x xdata sub), .single d.fresh f.data (side.lay (side.of f) c)],
      e.Stands n := by simpa using ⟨hrest, hshell⟩
  have hcover : ∀ id, e.node? id ≠ none → (∃ n ∈ [plug (side.clear f :: fs) (.single x xdata sub),
      .single d.fresh f.data (side.lay (side.of f) c)], id ∈ n.order) ∨
      d.node? id ≠ none ∧ id ∉ (plug (f :: fs) (.single x xdata sub)).order ∧ id ∉ c.order := fun id hid ↦ by
    simp only [List.mem_cons, List.not_mem_nil, or_false, exists_eq_or_imp, exists_eq_left, order_single, order_lay, mem_lay,
      hperm.mem_iff, List.mem_append, not_or]
    by_cases hfresh : id = d.fresh
    · exact .inl (.inr (.inl hfresh))
    by_cases hT : id ∈ (plug (f :: fs) (.single x xdata sub)).order
    · rw [hperm.mem_iff, List.mem_append] at hT
      tauto
    by_cases hC : id ∈ c.order
    · tauto
    · rw [hstay id hfresh hT hC] at hid
      rw [hperm.mem_iff, List.mem_append] at hT
      tauto
  have htops : (plug (side.clear f :: fs) (.single x xdata sub)).tops = (plug (f :: fs) (.single x xdata sub)).tops := by
    rw [tops_plug, tops_plug, summit_cons, summit_cons, side.clear_id]
  rcases hc with rfl | hc
  · refine Forest.change [plug (f :: fs) (.single x xdata sub)] _ (by simpa using h) (fun id hid hout ↦ ?_) hd hgrows.serial
      hnew (fun id hid ↦ (hcover id hid).imp_right fun hid ↦ ⟨hid.1, by simpa using hid.2.1⟩) fun o ho hoTops ↦ ?_
    · exact hstay id (hne id hid) (hout _ (List.mem_singleton_self _)) (by simp)
    · obtain rfl := List.mem_singleton.1 ho
      exact ⟨_, List.mem_cons_self .., htops.trans hoTops⟩
  · refine Forest.change [plug (f :: fs) (.single x xdata sub), c] _ (by simpa using ⟨h, hc⟩) (fun id hid hout ↦ ?_) hd
      hgrows.serial hnew (fun id hid ↦ (hcover id hid).imp_right fun hid ↦ ⟨hid.1, by simpa using hid.2⟩) fun o ho hoTops ↦ ?_
    · exact hstay id (hne id hid) (hout _ (by simp)) (hout _ (by simp))
    · rcases List.mem_cons.1 ho with rfl | ho
      · exact ⟨_, List.mem_cons_self .., htops.trans hoTops⟩
      · exact absurd (List.mem_singleton.1 ho ▸ hoTops) hroot

theorem toList_tops (hc : c = bare ∨ d.Stands c) : c.tops.head?.toList = c.tops := by
  rcases hc with rfl | hc
  · rfl
  · obtain ⟨top, data, sub, rfl⟩ := hc.single
    rfl

theorem summit_mem (fs : List Frame) (id : NodeId) : summit fs id ∈ id :: chain fs := by
  induction fs generalizing id with
  | nil => exact List.mem_singleton_self _
  | cons f fs ih =>
    rw [summit_cons]
    exact List.mem_cons_of_mem _ (ih f.id)

theorem clear_of_bare (h : side.of f = bare) : side.clear f = f := by
  cases side
  · exact congrArg (fun g ↦ { f with left := g }) h.symm
  · exact congrArg (fun g ↦ { f with right := g }) h.symm

/-- Two trees that stand in a document are apart when one has a top that the other does not have. -/
theorem Stands.apart (h : d.Stands a) (h' : d.Stands b) (hne : a.tops ≠ b.tops) : ∀ id ∈ a.order, id ∉ b.order :=
  fun _ hid hin ↦ hne (congrArg tops (h.unique h' hid hin))

theorem carry_top (n : ℕ) (d : Document) (top : NodeId) (carried : Option NodeId) :
    carry side top n d top carried = (carried, d) := by
  cases n with
  | zero => rfl
  | succ n => rw [carry, if_pos rfl]

/-- A tree is divided on a side of the way down to a place, along some frames: `c`, which stands on
its own, is carried up, and `q` comes out. -/
structure Divides (side : Side) (d e : Document) (fs outer : List Frame) (g c q : Grove) : Prop where
  parts : Parts side d fs c q
  forest : e.Forest
  kept : e.Stands (plug (fs.map side.clear ++ outer) g)
  part : q = bare ∨ e.Stands q
  notRoot : q.tops ≠ [d.root]
  apart : ∀ id ∈ q.order, id ∉ (plug (fs.map side.clear ++ outer) g).order
  grows : Grows d e
  stay : ∀ id, d.node? id ≠ none → id ∉ (plug (fs ++ outer) g).order → id ∉ c.order → e.node? id = d.node? id

/-- A tree is on its way up beside a place: it stands apart from the tree of the place. -/
structure Carries (d : Document) (fs : List Frame) (x : NodeId) (xdata : NodeData) (sub c : Grove) : Prop where
  forest : d.Forest
  stands : d.Stands (plug fs (.single x xdata sub))
  carried : c = bare ∨ d.Stands c
  notRoot : c.tops ≠ [d.root]
  apart : ∀ id ∈ c.order, id ∉ (plug fs (.single x xdata sub)).order

theorem Carries.step {n : ℕ} (h : d.Carries (f :: fs) x xdata sub c) (side : Side) (top : NodeId) (hne : x ≠ top) :
    carry side top (n + 1) d x c.tops.head? =
      match (side.lay (side.of f) c).tops with
      | [] => carry side top n d f.id none
      | moved =>
        let (shell, d) := d.moveOut f.id moved ((side.clear f).left.tops ++ x :: (side.clear f).right.tops)
        carry side top n d f.id (some shell) := by
  obtain ⟨hparent, hchildren, -⟩ := h.stands.siblings
  have hnodup : (f.left.tops ++ x :: f.right.tops).Nodup := hchildren ▸ h.forest.wellFormed.distinct f.id
  rw [carry, if_neg hne, hparent]
  dsimp only
  rw [hchildren, cut_eq side hnodup]
  dsimp only
  have hgather : side.gather (side.of f).tops c.tops.head? = (side.lay (side.of f) c).tops := by
    rw [gather_eq, toList_tops h.carried, ← tops_lay]
  cases htops : (side.lay (side.of f) c).tops <;> simp only [hgather, htops]

theorem plug_clear (side : Side) (f : Frame) (fs : List Frame) (g : Grove) : plug (side.clear f :: fs) g =
    plug fs (single f.id f.data ((side.clear f).left ++ g ++ (side.clear f).right)) := by
  rw [plug_cons, side.clear_id, side.clear_data]

theorem Carries.pass (h : d.Carries (f :: fs) x xdata sub bare) :
    d.Carries fs f.id f.data (f.left ++ .single x xdata sub ++ f.right) bare where
  forest := h.forest
  stands := h.stands
  carried := .inl rfl
  notRoot := by simp
  apart := by simp

theorem Carries.move (h : d.Carries (f :: fs) x xdata sub c) (side : Side) :
    ∃ e, d.moveOut f.id (side.lay (side.of f).tops c.tops)
        ((side.clear f).left.tops ++ x :: (side.clear f).right.tops) = (d.fresh, e) ∧
      e.Carries fs f.id f.data ((side.clear f).left ++ .single x xdata sub ++ (side.clear f).right)
        (.single d.fresh f.data (side.lay (side.of f) c)) ∧ Grows d e ∧
      ∀ id, id ≠ d.fresh → id ∉ (plug (f :: fs) (.single x xdata sub)).order → id ∉ c.order → e.node? id = d.node? id := by
  obtain ⟨e, hmove, hkept, hshell, hgrows, hstay⟩ := h.stands.moveOut side h.carried h.apart
  have hforest := h.forest.moveOut h.stands h.carried h.apart hgrows hkept hshell hstay h.notRoot
  have hfresh : d.fresh ≠ d.root := fun heq ↦ h.forest.wellFormed.rooted (heq ▸ node?_fresh d)
  have hapart := hshell.apart hkept (by
    rw [tops_single, tops_plug]
    intro heq
    have hin : summit (f :: fs) x ∈ (plug (f :: fs) (.single x xdata sub)).order :=
      (plug _ _).tops_sublist.subset (by rw [tops_plug]; exact List.mem_singleton_self _)
    rw [summit_cons, side.clear_id, ← summit_cons f _ x] at heq
    exact h.stands.holds.known _ hin ((List.cons.inj heq).1 ▸ node?_fresh d))
  rw [plug_clear] at hkept hapart
  exact ⟨e, hmove, ⟨hforest, hkept, .inr hshell, by simpa [hgrows.root] using hfresh, hapart⟩, hgrows, hstay⟩

/-- A level at which nothing stands on the side, and nothing is carried. -/
theorem Divides.pass {q : Grove} (hof : side.of f = bare)
    (h : Divides side d e fs outer (single f.id f.data (f.left ++ g ++ f.right)) bare q) :
    Divides side d e (f :: fs) outer g bare q := by
  have hclear : List.map side.clear (f :: fs) = f :: fs.map side.clear := by rw [List.map_cons, clear_of_bare hof]
  exact ⟨.pass hof h.parts, h.forest, hclear ▸ h.kept, h.part, h.notRoot, hclear ▸ h.apart, h.grows, h.stay⟩

theorem Divides.move {d' : Document} {q : Grove} (hsome : side.lay (side.of f) c ≠ bare) (hgrows : Grows d d')
    (hstay : ∀ id, id ≠ d.fresh → id ∉ (plug (f :: (fs ++ outer)) g).order → id ∉ c.order → d'.node? id = d.node? id)
    (h : Divides side d' e fs outer (single f.id f.data ((side.clear f).left ++ g ++ (side.clear f).right))
      (single d.fresh f.data (side.lay (side.of f) c)) q) : Divides side d e (f :: fs) outer g c q := by
  have hclear : plug (List.map side.clear (f :: fs) ++ outer) g = plug (List.map side.clear fs ++ outer)
      (single f.id f.data ((side.clear f).left ++ g ++ (side.clear f).right)) := by
    rw [List.map_cons, List.cons_append, plug_clear]
  refine ⟨.move d.fresh hsome (node?_fresh d) (h.parts.mono hgrows), h.forest, hclear ▸ h.kept, h.part,
    hgrows.root ▸ h.notRoot, hclear ▸ h.apart, hgrows.trans h.grows, fun id hid hout hcout ↦ ?_⟩
  have hfresh : id ≠ d.fresh := fun heq ↦ hid (heq ▸ node?_fresh d)
  have hperm := perm_clear side f (fs ++ outer) g
  have hid' : d'.node? id = d.node? id := hstay id hfresh hout hcout
  rw [← hid']
  refine h.stay id (by rwa [hid']) (fun hin ↦ hout ?_) fun hin ↦ ?_
  · rw [← plug_clear] at hin
    exact hperm.mem_iff.2 (List.mem_append_left _ hin)
  · rw [order_single, List.mem_cons, order_lay, mem_lay] at hin
    rcases hin with hin | hin | hin
    · exact hfresh hin
    · exact hout (hperm.mem_iff.2 (List.mem_append_right _ hin))
    · exact hcout hin

theorem ne_summit (h : d.Stands (plug (f :: fs ++ outer) (.single x xdata sub))) : x ≠ summit (f :: fs) x := fun heq ↦ by
  refine h.notMem_chain ?_
  rw [chain, List.map_append]
  refine List.mem_append_left _ ?_
  have := summit_mem fs f.id
  rwa [← summit_cons f fs x, ← heq] at this

/-- What a division leaves of a tree and makes of what stands on the side, level by level. -/
theorem Carries.divides : ∀ {fs : List Frame} {d : Document} {n : ℕ} {x : NodeId} {xdata : NodeData} {sub c : Grove},
    d.Carries (fs ++ outer) x xdata sub c → fs.length ≤ n →
      ∃ q e, carry side (summit fs x) n d x c.tops.head? = (q.tops.head?, e) ∧
        Divides side d e fs outer (single x xdata sub) c q
  | [], d, n, x, xdata, sub, c, h, _ =>
    ⟨c, d, carry_top n d x _, .done, h.forest, h.stands, h.carried, h.notRoot, h.apart, .refl d, fun _ _ _ _ ↦ rfl⟩
  | f :: fs, d, n, x, xdata, sub, c, h, hn => by
    obtain ⟨n, rfl⟩ : ∃ k, n = k + 1 := ⟨n - 1, by simp only [List.length_cons] at hn; omega⟩
    have hn' : fs.length ≤ n := by simpa using hn
    have h' : d.Carries (f :: (fs ++ outer)) x xdata sub c := h
    rw [h'.step side _ (ne_summit h.stands), summit_cons]
    by_cases hnone : side.lay (side.of f) c = bare
    · obtain ⟨hof, hcbare⟩ := lay_eq_nil.1 ((tops_lay side (side.of f) c).symm.trans (by rw [hnone, tops_bare]))
      obtain rfl : c = bare := eq_bare_of_tops hcbare
      obtain ⟨q, e, hq, hdiv⟩ := h'.pass.divides hn'
      exact ⟨q, e, by rw [hnone]; exact hq, hdiv.pass (eq_bare_of_tops hof)⟩
    · obtain ⟨d', hmove, hnext, hgrows, hstay⟩ := h'.move side
      obtain ⟨q, e, hq, hdiv⟩ := hnext.divides hn'
      refine ⟨q, e, ?_, hdiv.move hnone hgrows hstay⟩
      obtain ⟨m, ms, hms⟩ : ∃ m ms, (side.lay (side.of f) c).tops = m :: ms :=
        List.exists_cons_of_ne_nil fun heq ↦ hnone (eq_bare_of_tops heq)
      rw [hms]
      dsimp only
      rw [← hms, tops_lay, hmove]
      exact hq

/-! ### What comes out is put beside the tree -/

theorem lay_bare (side : Side) (g : Grove) : side.lay bare g = g := by
  cases side
  · rfl
  · exact append_bare g

def Side.insert (side : Side) (d : Document) (ref id : NodeId) : Except DocumentError Document :=
  match side with
  | .before => d.insertBefore ref id
  | .after => d.insertAfter ref id

section Insert

variable {left right : Grove} {top : NodeId} (hd : d.Forest) (hT : d.Stands (plug fs (.single p data (left ++ g ++ right))))
  (htop : g.tops = [top]) (hx : d.Stands (.single x xdata sub))
  (hapart : x ∉ (plug fs (.single p data (left ++ g ++ right))).order) (hroot : x ≠ d.root)

include hd hT htop hx hapart hroot

theorem Stands.insert (side : Side) : ∃ e, side.insert d top x = .ok e ∧ e.Forest ∧
    e.Stands (plug fs (.single p data (left ++ side.lay (.single x xdata sub) g ++ right))) ∧ Grows d e ∧
    ∀ id, id ≠ p → id ≠ x → e.node? id = d.node? id := by
  have hchildren : d.children p = left.tops ++ top :: right.tops := by rw [hT.children]; simp [htop]
  have hin : top ∈ (left ++ g ++ right).tops := by simp [htop]
  have hparent : d.parent? top = some p := hT.below.parent?_top top hin
  obtain ⟨n, hn⟩ := Option.ne_none_iff_exists'.1 (known_of_parent? hparent)
  have helement : ¬data.IsText := fun ht ↦ by
    have hnone := (Grove.proper_single.1 hT.proper_at).1 ht
    rw [hnone] at hin
    simp at hin
  have hleft : top ∉ left.tops := fun hin ↦ by
    have hnodup := hd.wellFormed.distinct p
    rw [hchildren] at hnodup
    exact (List.nodup_append.1 hnodup).2.2 _ hin _ (List.mem_cons_self ..) rfl
  have hcheck := hT.checkInsertable (a := left ++ g) hx hapart helement hroot
  have hok : ∀ place, d.insertBeside place top x = .ok (d.link p x (place top x (left.tops ++ top :: right.tops))) := fun place ↦ by
    simp [insertBeside, check_ok hn, hparent, hcheck, hchildren, bind, Except.bind]
  have hframe : ∀ children, ∀ id, id ≠ p → id ≠ x → (d.link p x children).node? id = d.node? id := fun children id hp hx ↦ by
    rw [Document.link, node?_modify_of_ne hp, node?_modify_of_ne hx]
  have hgrows : ∀ children, Grows d (d.link p x children) := fun _ ↦ (Grows.modify _ _ _).trans (Grows.modify _ _ _)
  cases side with
  | before =>
    have hT' : d.Stands (plug fs (.single p data (left ++ (g ++ right)))) := append_assoc left g right ▸ hT
    have hapart' : x ∉ (plug fs (.single p data (left ++ (g ++ right)))).order := append_assoc left g right ▸ hapart
    refine ⟨_, hok putBefore, ?_, ?_, hgrows _, hframe _⟩ <;> rw [putBefore_append hleft]
    · simpa [htop] using Forest.link hd hT' hx hapart' helement hroot
    · simpa [htop, Side.lay, append_assoc] using (Stands.link hT' hx hapart' helement).1
  | after =>
    refine ⟨_, hok putBehind, ?_, ?_, hgrows _, hframe _⟩ <;> rw [putBehind_append hleft]
    · simpa [htop] using Forest.link hd hT hx hapart helement hroot
    · simpa [htop, Side.lay, append_assoc] using (Stands.link hT hx hapart helement).1

end Insert

theorem Carries.ofPlace (hd : d.Forest) (h : d.Stands (plug fs (.single x xdata sub))) : d.Carries fs x xdata sub bare :=
  ⟨hd, h, .inl rfl, by simp, by simp⟩

/-- A node is split off the child of an ancestor: what stands on the side of the node, below that
child, is put beside the child, in elements like those it comes from. -/
theorem Stands.splitOff (side : Side) (hd : d.Forest) (h : d.Stands (plug (fs ++ f :: outer) (.single x xdata sub))) :
    ∃ q e, d.splitOff f.id x side = .ok (q.tops.head?, e) ∧ Parts side d fs bare q ∧ e.Forest ∧
      e.Stands (plug outer (.single f.id f.data
        (f.left ++ side.lay q (plug (fs.map side.clear) (.single x xdata sub)) ++ f.right))) ∧
      Grows d e ∧ ∀ id, d.node? id ≠ none → id ∉ (plug (fs ++ f :: outer) (.single x xdata sub)).order →
        e.node? id = d.node? id := by
  have hfs : fs.length ≤ d.size := by
    have := h.length_frames
    simp only [List.length_append] at this
    omega
  obtain ⟨q, e, hcarry, hdiv⟩ : ∃ q e, carry side (summit fs x) d.size d x none = (q.tops.head?, e) ∧
      Divides side d e fs (f :: outer) (.single x xdata sub) bare q :=
    (Carries.ofPlace hd h).divides hfs
  have hkept : e.Stands (plug outer (.single f.id f.data
      (f.left ++ plug (fs.map side.clear) (.single x xdata sub) ++ f.right))) := by
    have := hdiv.kept
    rwa [plug_append] at this
  have hstay : ∀ id, d.node? id ≠ none → id ∉ (plug (fs ++ f :: outer) (.single x xdata sub)).order →
      e.node? id = d.node? id := fun id hid hout ↦ hdiv.stay id hid hout (by simp)
  have hfin : f.id ∈ (plug (fs ++ f :: outer) (.single x xdata sub)).order := by
    rw [plug_append]
    exact mem_order_parts.2 (.inl rfl)
  obtain ⟨n, hn⟩ := Option.ne_none_iff_exists'.1 (h.holds.known f.id hfin)
  have hchild := h.ancestorChild?
  rcases hdiv.part with rfl | hq
  · refine ⟨bare, e, ?_, hdiv.parts, hdiv.forest, by rwa [lay_bare], hdiv.grows, hstay⟩
    simp [Document.splitOff, check_ok hn, check_ok h.node?, hchild, hcarry, bind, Except.bind]
  · obtain ⟨part, pdata, psub, rfl⟩ := hq.single
    have htop : (plug (fs.map side.clear) (.single x xdata sub)).tops = [summit fs x] := by
      have hchain : chain (fs.map side.clear) = chain fs := by simp [chain, Function.comp_def]
      rw [tops_plug, summit, summit, hchain]
    have hapart : part ∉ (plug outer (.single f.id f.data
        (f.left ++ plug (fs.map side.clear) (.single x xdata sub) ++ f.right))).order := by
      have := hdiv.apart part (by simp)
      rwa [plug_append] at this
    have hroot : part ≠ e.root := by
      rw [hdiv.grows.root]
      simpa using hdiv.notRoot
    obtain ⟨e', hinsert, hforest, hstands, hgrows, hframe⟩ := hkept.insert hdiv.forest htop hq hapart hroot side
    refine ⟨_, e', ?_, hdiv.parts, hforest, hstands, hdiv.grows.trans hgrows, fun id hid hout ↦ ?_⟩
    · cases side <;>
      · simp only [Side.insert] at hinsert
        simp [Document.splitOff, check_ok hn, check_ok h.node?, hchild, hcarry, hinsert, bind, Except.bind]
    · rw [hframe id (fun heq ↦ hout (heq ▸ hfin)) fun heq ↦ ?_, hstay id hid hout]
      exact hid (hdiv.parts.new (by simp) id (by simp [heq]))

end Document

end Stencil
