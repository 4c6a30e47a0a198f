import Stencil.Proofs.Grove.Deletion
/-!
Divisions lose nothing. What stands on one side of a node, below a child of a node above it, goes
into a new sibling of that child, in its order and below elements like those it was below; where
nothing stands there the document stays as it is.
-/

namespace Stencil

open Grove

def Lineage.handle? (P : NodeId → Bool) (l : Lineage) : Option NodeId := if P l.id then some l.id else none

theorem Lineage.filterMap_handle? (P : NodeId → Bool) (ls : List Lineage) :
    ls.filterMap (Lineage.handle? P) = (ls.map Lineage.id).filter P := by
  induction ls with
  | nil => rfl
  | cons l ls ih =>
    rw [List.filterMap_cons, List.map_cons, List.filter_cons, ← ih, Lineage.handle?]
    by_cases hl : P l.id = true
    · rw [if_pos hl, if_pos hl]
    · rw [if_neg hl, if_neg hl]

namespace Document

variable {d e : Document} {side : Side} {fs outer : List Frame} {a b c g m m' q sub : Grove} {id n p x : NodeId}
  {data pdata xdata : NodeData} {above : List NodeData}

/-! ### What is said of a division -/

def topOf (d : Document) (id : NodeId) : NodeId := ((d.ancestors id).getLast?).getD id

/-- The nodes in and below `top` that stand on a side of a node and all below it, apart from those
above it. -/
def aside (d : Document) (side : Side) (top id : NodeId) : List NodeId :=
  match side with
  | .before => ((d.descendants top).takeWhile (· ≠ id)).filter fun n ↦ !(d.ancestors id).contains n
  | .after => ((d.descendants top).dropWhile (· ≠ id)).drop (d.descendants id).length

def offWay (d : Document) (id n : NodeId) : Bool := (d.node? n).isSome && !(d.ancestors id).contains n

/-- What the nodes hold on the way from a node up to one above it. -/
def wayTo (d : Document) (p id : NodeId) : List (Option NodeData) := ((d.ancestors id).takeWhile (· ≠ p)).map d.data?

/-- What comes out of a division, a new sibling of the child `top` of a node: apart from new nodes,
each above one that is not, it has the nodes on the side of the place, in their order. -/
structure Portion (side : Side) (d e : Document) (p top id part : NodeId) : Prop where
  new : d.node? part = none
  beside : ∃ l r, d.children p = l ++ top :: r ∧ e.children p = l ++ side.lay [part] [top] ++ r
  nodes : (e.descendants part).filter (fun n ↦ (d.node? n).isSome) = d.aside side top id
  shells : ∀ n ∈ e.descendants part, d.node? n = none → ∃ k ∈ d.aside side top id, k ∈ e.descendants n
  ways : ∀ n ∈ d.aside side top id, p ∈ e.ancestors n ∧ e.wayTo p n = d.wayTo p n

/-- What the division of a child `top` of a node makes of a document. All nodes keep what they hold,
what is above them holds what it held, and they stay in their trees; apart from the way down to the
place they keep their order. -/
structure Divided (side : Side) (d e : Document) (p top id : NodeId) (part? : Option NodeId) : Prop where
  wellFormed : e.WellFormed
  part?_eq_none : part? = none ↔ d.aside side top id = []
  unchanged : part? = none → e = d
  portion : ∀ part, part? = some part → Portion side d e p top id part
  kept : ∀ n, d.node? n ≠ none → e.account n = d.account n ∧ e.topOf n = d.topOf n
  order : (e.descendants p).filter (d.offWay id) = (d.descendants p).filter (d.offWay id)
  text : e.textContent p = d.textContent p
  below : e.descendants id = d.descendants id ∧ ∀ n ∈ d.descendants id, e.node? n = d.node? n

/-! ### Shells -/

theorem Parts.of_bare (h : Parts side d fs c q) (hq : q = bare) : c = bare ∧ ∀ f ∈ fs, side.of f = bare := by
  induction h with
  | done => exact ⟨hq, by simp⟩
  | pass hof _ ih => exact ⟨rfl, List.forall_mem_cons.2 ⟨hof, (ih hq).2⟩⟩
  | move shell _ _ _ ih =>
    have hshell := (ih hq).1
    contradiction

theorem Parts.single (h : Parts side d fs c q) (hc : c = bare ∨ ∃ id data sub, c = .single id data sub) :
    q = bare ∨ ∃ id data sub, q = .single id data sub := by
  induction h with
  | done => exact hc
  | pass _ _ ih => exact ih hc
  | move shell _ _ _ ih => exact ih (.inr ⟨_, _, _, rfl⟩)

theorem Carries.carry_bare : ∀ {fs : List Frame} {n : ℕ} {x : NodeId} {xdata : NodeData} {sub : Grove},
    d.Carries (fs ++ outer) x xdata sub bare → (∀ f ∈ fs, side.of f = bare) → fs.length ≤ n →
      carry side (summit fs x) n d x none = (none, d)
  | [], n, x, _, _, _, _, _ => carry_top n d x none
  | f :: fs, n, x, xdata, sub, h, hbare, hn => by
    obtain ⟨n, rfl⟩ : ∃ k, n = k + 1 := ⟨n - 1, by simp only [List.length_cons] at hn; omega⟩
    rw [List.forall_mem_cons] at hbare
    have h' : d.Carries (f :: (fs ++ outer)) x xdata sub bare := h
    have hnone : (side.lay (side.of f) bare).tops = [] := by rw [hbare.1, lay_bare, tops_bare]
    have hstep := h'.step (n := n) side _ (ne_summit h.stands)
    rw [tops_bare, List.head?_nil, hnone] at hstep
    rw [hstep, summit_cons]
    exact h'.pass.carry_bare hbare.2 (by simpa using hn)

@[simp] theorem datas_clear (side : Side) (fs : List Frame) : datas (fs.map side.clear) = datas fs := by
  simp [datas, Function.comp_def]

theorem linesBefore_clear (fs : List Frame) : linesBefore above (fs.map Side.after.clear) = linesBefore above fs := by
  induction fs with
  | nil => rfl
  | cons f fs ih => simp only [List.map_cons, linesBefore, ih, datas_clear, Side.clear]

theorem linesBehind_clear (fs : List Frame) : linesBehind above (fs.map Side.before.clear) = linesBehind above fs := by
  induction fs with
  | nil => rfl
  | cons f fs ih => simp only [List.map_cons, linesBehind, ih, datas_clear, Side.clear]

theorem filterMap_lines_clear {α : Type} (φ : Lineage → Option α) (hframe : ∀ f ∈ fs, ∀ above, φ ⟨f.id, f.data, above⟩ = none) :
    (side.lines above (fs.map side.clear)).filterMap φ = [] := by
  induction fs with
  | nil => cases side <;> rfl
  | cons f fs ih =>
    rw [List.forall_mem_cons] at hframe
    have hrest := ih hframe.2
    cases side with
    | before => simp only [Side.lines] at hrest; simp [Side.lines, linesBefore, Side.clear, hrest, hframe.1]
    | after => simp only [Side.lines] at hrest; simp [Side.lines, linesBehind, Side.clear, hrest]

/-- Seen by a reading that passes over new nodes and over those above the place, a division leaves
all in its order. -/
theorem Parts.filterMap_division {α : Type} (φ : Lineage → Option α) (h : Parts side d fs bare q)
    (hframe : ∀ f ∈ fs, ∀ above, φ ⟨f.id, f.data, above⟩ = none)
    (hshell : ∀ f ∈ fs, ∀ shell above, d.node? shell = none → φ ⟨shell, f.data, above⟩ = none) :
    ((side.lay q (plug (fs.map side.clear) g)).lineages above).filterMap φ = ((plug fs g).lineages above).filterMap φ := by
  have hq : (q.lineages above).filterMap φ = _ := h.filterMap_lineages φ hframe hshell
  have hclear : (side.lines above (fs.map side.clear)).filterMap φ = [] := filterMap_lines_clear φ hframe
  cases side with
  | before =>
    simp only [Side.lay, Side.lines, lineages_bare, List.append_nil] at hq hclear ⊢
    simp only [lineages_append, lineages_plug, List.filterMap_append, hq, hclear, linesBehind_clear, datas_clear,
      List.nil_append, List.append_assoc]
  | after =>
    simp only [Side.lay, Side.lines, lineages_bare, List.nil_append] at hq hclear ⊢
    simp only [lineages_append, lineages_plug, List.filterMap_append, hq, hclear, linesBefore_clear, datas_clear,
      List.append_nil]

/-- A division leaves every node with what it holds and what the nodes above it hold. -/
theorem Parts.mem_lineages {l : Lineage} (h : Parts side d fs c q) (hl : d.node? l.id ≠ none) :
    (l ∈ q.lineages above ∨ l ∈ (plug (fs.map side.clear) g).lineages above) ↔
      (l ∈ c.lineages (datas fs ++ above) ∨ l ∈ (plug fs g).lineages above) := by
  induction h generalizing g with
  | done => rfl
  | @pass f fs q hof _ ih =>
    rw [List.map_cons, clear_of_bare hof, plug_cons, plug_cons, ih]
    simp
  | @move f fs c q shell _ hnew _ ih =>
    have hne : l ≠ ⟨shell, f.data, datas fs ++ above⟩ := fun heq ↦ hl (by rw [heq]; exact hnew)
    rw [List.map_cons, plug_clear, ih, plug_cons]
    cases side <;>
      simp only [lineages_plug, lineages_single, lineages_append, lineages_bare, Side.lay, Side.of, Side.clear, List.map_cons,
        List.mem_append, List.mem_cons, List.cons_append, List.append_nil, List.nil_append, hne, false_or] <;> tauto

/-! ### Trees seen from a node of them -/

theorem Stands.topOf (h : d.Stands g) (hid : id ∈ g.order) : g.tops = [d.topOf id] := by
  obtain ⟨sub, data, fs, rfl⟩ := h.exists_place hid
  rw [tops_plug, Document.topOf, h.ancestors, summit]

theorem Stands.exists_way (h : d.Stands (plug outer (.single p pdata (a ++ m ++ b)))) (hn : n ∈ m.order) :
    ∃ way, d.ancestors n = way ++ p :: chain outer ∧ p ∉ way := by
  obtain ⟨left, right, below, data, gs, rfl⟩ := Grove.exists_place hn
  have hplace : d.Stands (plug (gs ++ ⟨p, pdata, a ++ left, right ++ b⟩ :: outer) (.single n data below)) := by
    rw [plug_append, plug_cons]
    simpa only [append_assoc] using h
  have hnodup := hplace.nodup_chain
  rw [chain, List.map_append, List.map_cons, List.nodup_append] at hnodup
  refine ⟨chain gs, by rw [hplace.ancestors]; simp [chain], fun hin ↦ ?_⟩
  exact hnodup.2.2 p hin p (List.mem_cons_self ..) rfl

theorem mem_order_of_lineage {l : Lineage} (hl : l ∈ g.lineages above) : l.id ∈ g.order := by
  have hids : (g.lineages above).map Lineage.id = g.order := lineages_id
  rw [← hids]
  exact List.mem_map_of_mem hl

theorem Stands.exists_lineage (h : d.Stands g) (hn : n ∈ g.order) : ∃ l ∈ g.lineages [], l.id = n ∧ d.Agrees l := by
  have hids : (g.lineages []).map Lineage.id = g.order := lineages_id
  rw [← hids, List.mem_map] at hn
  obtain ⟨l, hl, rfl⟩ := hn
  exact ⟨l, hl, rfl, h.agrees l hl⟩

theorem Agrees.account {l : Lineage} (hd : d.Agrees l) (he : e.Agrees l) : e.account l.id = d.account l.id := by
  rw [Document.account, Document.account, hd.1, hd.2, he.1, he.2]

theorem Stands.textContent_eq (h : d.Stands (plug outer (.single p pdata m))) :
    d.textContent p = String.join ((⟨p, pdata, datas outer⟩ :: m.lineages (pdata :: datas outer)).filterMap Lineage.text?) := by
  have hagrees : ∀ l ∈ (Grove.single p pdata m).lineages (datas outer ++ []), d.Agrees l := fun l hl ↦ by
    apply h.agrees l
    rw [lineages_plug]
    exact List.mem_append_left _ (List.mem_append_right _ hl)
  rw [List.append_nil, lineages_single] at hagrees
  rw [← Area.filterMap_text hagrees, List.map_cons, lineages_id, textContent, h.descendants]

section Exchange

variable (hd : d.Stands (plug outer (.single p pdata (a ++ m ++ b)))) (he : e.Stands (plug outer (.single p pdata (a ++ m' ++ b))))

include hd he

/-- Where trees below a node make way for others that say of every node what they said, all nodes
keep their accounts. -/
theorem Stands.account_eq (hmem : ∀ l ∈ m.lineages (pdata :: datas outer), l ∈ m'.lineages (pdata :: datas outer)) :
    ∀ n ∈ (plug outer (.single p pdata (a ++ m ++ b))).order, e.account n = d.account n ∧ e.topOf n = d.topOf n := by
  intro n hn
  obtain ⟨l, hl, rfl, hagrees⟩ := hd.exists_lineage hn
  have hl' : l ∈ (plug outer (.single p pdata (a ++ m' ++ b))).lineages [] := by
    simp only [lineages_plug, lineages_single, lineages_append, List.append_nil, List.mem_append, List.mem_cons] at hl ⊢
    have := hmem l
    tauto
  have hn' := mem_order_of_lineage hl'
  refine ⟨hagrees.account (he.agrees l hl'), ?_⟩
  have htop := hd.topOf hn
  have htop' := he.topOf hn'
  rw [tops_plug] at htop htop'
  exact (List.cons.inj (htop'.symm.trans htop)).1

/-- The way from a node up to one above it shows in what is above the two. -/
theorem Stands.wayTo_eq (hn : n ∈ m.order) (hn' : n ∈ m'.order) (haccount : e.account n = d.account n) :
    e.wayTo p n = d.wayTo p n := by
  obtain ⟨way, hway, hp⟩ := hd.exists_way hn
  obtain ⟨way', hway', hp'⟩ := he.exists_way hn'
  simp only [account, Prod.mk.injEq, hway, hway', List.map_append] at haccount
  rw [wayTo, wayTo, hway, hway', takeWhile_ne hp, takeWhile_ne hp']
  have hlength := congrArg List.length haccount.2.2
  simp only [List.length_append, List.length_map, List.length_cons] at hlength
  exact (List.append_inj haccount.2.2 (by simpa using hlength)).1

theorem Stands.filter_eq (P : NodeId → Bool)
    (hpass : (m'.lineages (pdata :: datas outer)).filterMap (Lineage.handle? P) =
      (m.lineages (pdata :: datas outer)).filterMap (Lineage.handle? P)) :
    (e.descendants p).filter P = (d.descendants p).filter P := by
  rw [Lineage.filterMap_handle?, Lineage.filterMap_handle?, lineages_id, lineages_id] at hpass
  rw [hd.descendants, he.descendants]
  simp only [order_append, List.filter_cons, List.filter_append, hpass]

theorem Stands.text_eq (hpass : (m'.lineages (pdata :: datas outer)).filterMap Lineage.text? =
      (m.lineages (pdata :: datas outer)).filterMap Lineage.text?) : e.textContent p = d.textContent p := by
  rw [hd.textContent_eq, he.textContent_eq]
  simp only [lineages_append, List.filterMap_cons, List.filterMap_append, hpass]

end Exchange

/-! ### Divisions -/

section Division

variable {f : Frame} (hd : d.Forest) (h : d.Stands (plug (fs ++ f :: outer) (.single x xdata sub)))

include h

theorem Stands.child : d.Stands (plug (f :: outer) (plug fs (.single x xdata sub))) := by
  rwa [plug_append] at h

theorem Stands.descendants_summit : d.descendants (summit fs x) = before fs ++ x :: (sub.order ++ behind fs) := by
  have hchild := h.child
  obtain ⟨topData, below, heq⟩ := exists_summit fs x xdata sub
  have horder := order_plug (g := .single x xdata sub) fs
  rw [heq, order_single, order_single] at horder
  rw [heq] at hchild
  rw [hchild.descendants, horder, List.append_assoc, List.cons_append]

/-- The nodes on a side of a place are those that the frames of the place have on that side. -/
theorem Stands.aside_eq : d.aside side (summit fs x) x = (side.beyond fs).filter (d.offWay x) := by
  have hparts := h.nodup_parts
  have hknown : ∀ n, n ∈ before fs ∨ n ∈ behind fs → d.node? n ≠ none := fun n hn ↦ by
    apply h.holds.known
    simp only [order_plug, before_append, behind_append, List.mem_append]
    tauto
  rw [before_append, behind_append, List.nodup_append] at hparts
  have hx : x ∉ before fs := fun hin ↦ hparts.2.2 x (List.mem_append_right _ hin) x (List.mem_cons_self ..) rfl
  cases side with
  | before =>
    rw [aside, h.descendants_summit, takeWhile_ne hx]
    apply List.filter_congr
    intro n hn
    simp [offWay, Option.isSome_iff_ne_none, hknown n (.inl hn)]
  | after =>
    have hlength : (d.descendants x).length = (x :: sub.order).length := by rw [h.descendants]
    rw [aside, h.descendants_summit, dropWhile_ne hx, hlength, ← List.cons_append, List.drop_left]
    -- what stands behind the place is not above it
    refine (List.filter_eq_self.2 fun n hn ↦ ?_).symm
    have hout : n ∉ d.ancestors x := fun hin ↦ by
      rw [h.ancestors] at hin
      have hbefore := chain_subset_before _ n hin
      rw [before_append] at hbefore
      refine hparts.2.2 n hbefore n ?_ rfl
      simp [show n ∈ behind fs from hn]
    simp [offWay, Option.isSome_iff_ne_none, hknown n (.inr hn), hout]

theorem Stands.known_beyond : ∀ f' ∈ fs, ∀ n ∈ (side.of f').order, d.node? n ≠ none := by
  intro f' hf' n hn
  apply h.holds.known
  have hin := Side.mem_beyond hf' hn
  cases side <;> simp only [Side.beyond] at hin <;> simp [order_plug, before_append, behind_append, hin]

theorem Stands.offWay_eq_false (hn : n ∈ chain fs ∨ d.node? n = none) : d.offWay x n = false := by
  rcases hn with hn | hn
  · have hin : n ∈ d.ancestors x := by
      rw [h.ancestors, chain, List.map_append]
      exact List.mem_append_left _ hn
    simp [offWay, hin]
  · simp [offWay, hn]

/-- A reading of the nodes off the way to a place passes over its frames and over shells. -/
theorem Stands.handle?_passes : (∀ f' ∈ fs, ∀ above, Lineage.handle? (d.offWay x) ⟨f'.id, f'.data, above⟩ = none) ∧
    ∀ f' ∈ fs, ∀ shell above, d.node? shell = none → Lineage.handle? (d.offWay x) ⟨shell, f'.data, above⟩ = none := by
  constructor
  · intro f' hf' above
    simp [Lineage.handle?, h.offWay_eq_false (.inl (List.mem_map_of_mem hf'))]
  · intro f' _ shell above hshell
    simp [Lineage.handle?, h.offWay_eq_false (.inr hshell)]

theorem Stands.text?_frames : ∀ f' ∈ fs, ∀ id above, Lineage.text? ⟨id, f'.data, above⟩ = none := by
  intro f' hf' id above
  have helement := (h.proper_frames f' (List.mem_append_left _ hf')).element
  rw [Lineage.text?]
  cases hdata : f'.data with
  | element => rfl
  | text s => exact absurd ⟨s, hdata⟩ helement

section Outcome

variable (hq : Parts side d fs bare q) (he : e.Stands (plug outer (.single f.id f.data
  (f.left ++ side.lay q (plug (fs.map side.clear) (.single x xdata sub)) ++ f.right))))

include hq

/-- The nodes that are not new keep their order, apart from those above the place. -/
theorem Stands.beyond_eq : q.order.filter (d.offWay x) = (side.beyond fs).filter (d.offWay x) := by
  obtain ⟨hframe, hshell⟩ := h.handle?_passes
  have hpass : (q.lineages []).filterMap _ = _ := hq.filterMap_lineages _ hframe hshell
  rw [Lineage.filterMap_handle?, Lineage.filterMap_handle?, lineages_id] at hpass
  rw [hpass]
  cases side <;> simp [Side.lay, Side.lines, Side.beyond, linesBefore_id, linesBehind_id]

include he

omit h hq in
theorem Stands.exists_divided : ∃ l r, e.Stands (plug (fs.map side.clear ++ ⟨f.id, f.data, l, r⟩ :: outer) (.single x xdata sub)) := by
  cases side with
  | before =>
    refine ⟨f.left ++ q, f.right, ?_⟩
    rw [plug_append, plug_cons, append_assoc f.left]
    exact he
  | after =>
    refine ⟨f.left, q ++ f.right, ?_⟩
    rw [plug_append, plug_cons, ← append_assoc, append_assoc f.left]
    exact he

omit hq in
theorem Stands.notMem_way : ∀ n ∈ q.order, n ∉ d.ancestors x := by
  intro n hn hin
  have hparts := he.nodup_parts
  rw [List.nodup_append, List.nodup_cons, List.mem_append, not_or] at hparts
  obtain ⟨-, ⟨⟨hf, -⟩, hbelow⟩, hout⟩ := hparts
  have hnin : n ∈ (f.left ++ side.lay q (plug (fs.map side.clear) (.single x xdata sub)) ++ f.right).order := by
    rw [order_append, order_append, order_lay]
    exact List.mem_append_left _ (List.mem_append_right _ (mem_lay.2 (.inl hn)))
  rw [h.ancestors, chain, List.map_append, List.map_cons, List.mem_append, List.mem_cons] at hin
  rcases hin with hin | rfl | hin
  · -- the way below the child is apart from what comes out
    have hway : n ∈ (plug (fs.map side.clear) (.single x xdata sub)).order := by
      have hchain : chain (fs.map side.clear) = chain fs := by simp [chain, Function.comp_def]
      exact chain_subset_order (List.mem_cons_of_mem _ (hchain ▸ hin))
    rw [order_append, order_append, order_lay] at hbelow
    have hlay : (side.lay q.order (plug (fs.map side.clear) (.single x xdata sub)).order).Nodup :=
      (List.nodup_append.1 (List.nodup_append.1 (List.nodup_append.1 hbelow).1).1).2.1
    cases side with
    | before => exact (List.nodup_append.1 hlay).2.2 n hn n hway rfl
    | after => exact (List.nodup_append.1 hlay).2.2 n hway n hn rfl
  · exact hf hnin
  · exact hout n (chain_subset_before outer n hin) n (List.mem_cons_of_mem _ (List.mem_append_left _ hnin)) rfl

theorem Stands.nodes_eq : q.order.filter (fun n ↦ (d.node? n).isSome) = d.aside side (summit fs x) x := by
  rw [h.aside_eq, ← h.beyond_eq hq]
  apply List.filter_congr
  intro n hn
  simp [offWay, h.notMem_way he n hn]

/-- Below every new node stands one that stood on the side. -/
theorem Stands.exists_below_shell {left right below : Grove} {gs : List Frame}
    (hplace : q = left ++ plug gs (.single n data below) ++ right) (hn : d.node? n = none) :
    ∃ k ∈ d.aside side (summit fs x) x, k ∈ below.order := by
  have hfilled := hq.filled h.known_beyond trivial
  rw [hplace] at hfilled
  obtain ⟨k, hk, hknown⟩ := (filled_single.1 (filled_append.1 (filled_append.1 hfilled).1).2.of_plug).1 hn
  refine ⟨k, ?_, hk⟩
  rw [← h.nodes_eq hq he, List.mem_filter]
  refine ⟨?_, Option.isSome_iff_ne_none.2 hknown⟩
  rw [hplace]
  simp [order_plug, hk]

theorem Stands.aside_eq_nil : d.aside side (summit fs x) x = [] ↔ q = bare := by
  rw [← h.nodes_eq hq he]
  constructor
  · intro hnone
    by_contra hne
    obtain ⟨k, hk, hknown⟩ := (hq.filled h.known_beyond trivial).exists_known hne
    have hin : k ∈ q.order.filter (fun n ↦ (d.node? n).isSome) :=
      List.mem_filter.2 ⟨hk, Option.isSome_iff_ne_none.2 hknown⟩
    rw [hnone] at hin
    contradiction
  · rintro rfl
    rfl

theorem Stands.account_divided : ∀ n ∈ (plug (fs ++ f :: outer) (.single x xdata sub)).order,
    e.account n = d.account n ∧ e.topOf n = d.topOf n := by
  have hT : d.Stands (plug outer (.single f.id f.data (f.left ++ plug fs (.single x xdata sub) ++ f.right))) := h.child
  rw [plug_append, plug_cons]
  apply hT.account_eq he
  intro l hl
  have hknown : d.node? l.id ≠ none := by
    apply h.holds.known
    have hin := mem_order_of_lineage hl
    rw [plug_append, plug_cons, order_plug, order_single, order_append, order_append]
    simp [hin]
  have hmem : l ∈ q.lineages _ ∨ l ∈ (plug (fs.map side.clear) (.single x xdata sub)).lineages _ :=
    (hq.mem_lineages hknown).2 (.inr hl)
  cases side <;> simp only [Side.lay, lineages_append, List.mem_append] <;> tauto

/-- Apart from the way to the place nothing changes its order, and no text is lost. -/
theorem Stands.order_divided : (e.descendants f.id).filter (d.offWay x) = (d.descendants f.id).filter (d.offWay x) ∧
    e.textContent f.id = d.textContent f.id := by
  have hT : d.Stands (plug outer (.single f.id f.data (f.left ++ plug fs (.single x xdata sub) ++ f.right))) := h.child
  obtain ⟨hframe, hshell⟩ := h.handle?_passes
  have htext := h.text?_frames
  constructor
  · exact hT.filter_eq he _ (hq.filterMap_division _ hframe hshell)
  · exact hT.text_eq he (hq.filterMap_division _ (fun f' hf' ↦ htext f' hf' f'.id) fun f' hf' shell above _ ↦ htext f' hf' shell above)

omit hq in
theorem Stands.below_divided : e.descendants x = d.descendants x ∧ ∀ n ∈ d.descendants x, e.node? n = d.node? n := by
  obtain ⟨l, r, hplace⟩ := he.exists_divided
  rw [h.descendants, hplace.descendants, List.forall_mem_cons]
  refine ⟨rfl, ?_, h.below.node?_eq hplace.below⟩
  rw [h.node?, hplace.node?]
  simp [chain, Function.comp_def]

theorem Stands.portion {part : NodeId} {below : Grove} (hpart : q = .single part data below) :
    Portion side d e f.id (summit fs x) x part := by
  have hT : d.Stands (plug outer (.single f.id f.data (f.left ++ plug fs (.single x xdata sub) ++ f.right))) := h.child
  have hnodes := h.nodes_eq hq he
  -- the part is a child of the node that is divided at
  obtain ⟨l, r, hplace⟩ : ∃ l r, e.Stands (plug (⟨f.id, f.data, l, r⟩ :: outer) q) := by
    cases side with
    | before => exact ⟨f.left, plug (fs.map Side.before.clear) (.single x xdata sub) ++ f.right, by
        rw [plug_cons, ← append_assoc, append_assoc f.left]; exact he⟩
    | after => exact ⟨f.left ++ plug (fs.map Side.after.clear) (.single x xdata sub), f.right, by
        rw [plug_cons, append_assoc f.left]; exact he⟩
  have hwithin : ∀ {left right below : Grove} {n : NodeId} {data : NodeData} {gs : List Frame},
      q = left ++ plug gs (.single n data below) ++ right → e.descendants n = n :: below.order := by
    intro left right below n data gs heq
    have hn : e.Stands (plug (gs ++ ⟨f.id, f.data, l ++ left, right ++ r⟩ :: outer) (.single n data below)) := by
      rw [plug_append, plug_cons]
      rw [plug_cons, heq] at hplace
      simpa only [append_assoc] using hplace
    exact hn.descendants
  have horder : e.descendants part = q.order := by
    have hwhole : q = bare ++ plug [] (.single part data below) ++ bare := by rw [append_bare]; exact hpart
    rw [hwithin hwhole, hpart, order_single]
  refine ⟨hq.new (by simp) part (by simp [hpart]), ⟨f.left.tops, f.right.tops, ?_, ?_⟩, ?_, ?_, ?_⟩
  · rw [hT.children, tops_append, tops_append, tops_plug]
    simp
  · have htop : (plug (fs.map side.clear) (.single x xdata sub)).tops = [summit fs x] := by
      rw [tops_plug, Area.summit_clear]
    rw [he.children, tops_append, tops_append, tops_lay, htop, hpart, tops_single]
  · rw [horder, hnodes]
  · intro n hn hnone
    rw [horder] at hn
    obtain ⟨left, right, below', data', gs, heq⟩ := Grove.exists_place hn
    obtain ⟨k, hk, hbelow⟩ := h.exists_below_shell hq he heq hnone
    refine ⟨k, hk, ?_⟩
    rw [hwithin heq]
    exact List.mem_cons_of_mem _ hbelow
  · intro n hn
    have hold : n ∈ (plug fs (.single x xdata sub)).order := by
      rw [h.aside_eq, List.mem_filter] at hn
      rw [order_plug]
      cases side <;> simp only [Side.beyond] at hn <;> simp [hn.1]
    have hnew : n ∈ (side.lay q (plug (fs.map side.clear) (.single x xdata sub))).order := by
      rw [← hnodes, List.mem_filter] at hn
      rw [order_lay]
      exact mem_lay.2 (.inl hn.1)
    have haccount := h.account_divided hq he n (by
      rw [plug_append, plug_cons, order_plug, order_single, order_append, order_append]
      simp [hold])
    obtain ⟨way, hway, -⟩ := he.exists_way hnew
    exact ⟨by simp [hway], hT.wayTo_eq he hold hnew haccount.1⟩

end Outcome

include hd

theorem Stands.splitOff_bare (hbare : ∀ f' ∈ fs, side.of f' = bare) : d.splitOff f.id x side = .ok (none, d) := by
  have hfs : fs.length ≤ d.size := by
    have hlength := h.length_frames
    simp only [List.length_append] at hlength
    omega
  have hf : d.Stands (plug outer (.single f.id f.data (f.left ++ plug fs (.single x xdata sub) ++ f.right))) := h.child
  have hcarry := (Carries.ofPlace hd h).carry_bare hbare hfs
  simp [Document.splitOff, check_ok hf.node?, check_ok h.node?, h.ancestorChild?, hcarry, bind, Except.bind]

theorem Stands.divided (side : Side) : ∃ part? e, d.splitOff f.id x side = .ok (part?, e) ∧
    Divided side d e f.id (summit fs x) x part? := by
  obtain ⟨q, e, hon, hq, hforest, he, hgrows, hstay⟩ := h.splitOff side hd
  have hnone : q.tops.head? = none ↔ q = bare :=
    ⟨fun hhead ↦ eq_bare_of_tops (List.head?_eq_none_iff.1 hhead), fun heq ↦ by rw [heq]; rfl⟩
  obtain ⟨horder, htext⟩ := h.order_divided hq he
  refine ⟨_, e, hon, hforest.wellFormed, ?_, ?_, ?_, ?_, horder, htext, h.below_divided he⟩
  · rw [hnone, h.aside_eq_nil hq he]
  · intro hhead
    have hsame := h.splitOff_bare hd (hq.of_bare (hnone.1 hhead)).2
    rw [hon] at hsame
    exact (Prod.mk.inj (Except.ok.inj hsame)).2
  · intro part hhead
    obtain rfl | ⟨id, data, below, rfl⟩ := hq.single (.inl rfl)
    · contradiction
    · obtain rfl := Option.some.inj hhead
      exact h.portion hq he rfl
  · intro n hn
    by_cases hin : n ∈ (plug (fs ++ f :: outer) (.single x xdata sub)).order
    · exact h.account_divided hq he n hin
    · -- another tree
      obtain ⟨g, hg, hng⟩ := hd.all n hn
      have hsame : ∀ n ∈ g.order, e.node? n = d.node? n := fun n' hn' ↦ by
        apply hstay n' (hg.holds.known n' hn')
        intro hboth
        exact hin (hg.unique h hn' hboth ▸ hng)
      have hg' := hg.congr hsame
      obtain ⟨l, hl, rfl, hagrees⟩ := hg.exists_lineage hng
      refine ⟨hagrees.account (hg'.agrees l hl), ?_⟩
      exact (List.cons.inj ((hg'.topOf hng).symm.trans (hg.topOf hng))).1

end Division

/-- A division at a node above another one comes to an end, whatever the tree and the side. The child
that contains the other node gets a new sibling on that side with all that stands there, and with
nothing else but new elements around it; nothing happens when nothing stands there. -/
theorem splitOff_divides (h : d.WellFormed) (hp : p ∈ d.ancestors id) (side : Side) : ∃ top part? e,
    top ∈ id :: d.ancestors id ∧ d.parent? top = some p ∧ d.splitOff p id side = .ok (part?, e) ∧
      Divided side d e p top id part? := by
  have hid : d.node? id ≠ none := fun hnone ↦ by
    rw [ancestors_unknown hnone] at hp
    contradiction
  obtain ⟨sub, data, gs, hplace⟩ := h.forest.exists_place hid
  rw [hplace.ancestors] at hp
  obtain ⟨f, hf, rfl⟩ := List.mem_map.1 hp
  obtain ⟨fs, outer, rfl⟩ := List.append_of_mem hf
  obtain ⟨part?, e, hon, hdivided⟩ := hplace.divided h.forest side
  have hchild := hplace.ancestorChild?
  rw [ancestorChild?] at hchild
  have hparent := List.find?_some (p := fun c ↦ d.parent? c == some f.id) hchild
  exact ⟨summit fs id, part?, e, List.mem_of_find?_eq_some hchild, eq_of_beq hparent, hon, hdivided⟩

/-- A section of two paragraphs; the first one has an element between two texts. -/
def twoParagraphs : Document :=
  ⟨0, #[⟨.element "doc" [], none, [⟨0, 1⟩]⟩, ⟨.element "section" [], some ⟨0, 0⟩, [⟨0, 2⟩, ⟨0, 7⟩]⟩,
    ⟨.element "p" [], some ⟨0, 1⟩, [⟨0, 3⟩, ⟨0, 4⟩, ⟨0, 6⟩]⟩, ⟨.text "a", some ⟨0, 2⟩, []⟩,
    ⟨.element "em" [], some ⟨0, 2⟩, [⟨0, 5⟩]⟩, ⟨.text "begin", some ⟨0, 4⟩, []⟩, ⟨.text "b", some ⟨0, 2⟩, []⟩,
    ⟨.element "p" [], some ⟨0, 1⟩, [⟨0, 8⟩, ⟨0, 9⟩]⟩, ⟨.text "end", some ⟨0, 7⟩, []⟩, ⟨.text "z", some ⟨0, 7⟩, []⟩]⟩

theorem wellFormed_twoParagraphs : twoParagraphs.WellFormed := by
  let first : Grove := .tree ⟨0, 3⟩ (.text "a") .bare
    (.tree ⟨0, 4⟩ (.element "em" []) (.single ⟨0, 5⟩ (.text "begin") .bare) (.single ⟨0, 6⟩ (.text "b") .bare))
  let second : Grove := .tree ⟨0, 8⟩ (.text "end") .bare (.single ⟨0, 9⟩ (.text "z") .bare)
  let tree : Grove := .single ⟨0, 0⟩ (.element "doc" []) (.single ⟨0, 1⟩ (.element "section" [])
    (.tree ⟨0, 2⟩ (.element "p" []) first (.single ⟨0, 7⟩ (.element "p" []) second)))
  have htree : twoParagraphs.Stands tree := by
    refine ⟨⟨_, _, _, rfl⟩, ?_, by decide, ?_⟩
    · simp [tree, first, second, twoParagraphs, Holds, Grove.single, tops, node?]
    · simp [tree, first, second, Grove.single, Grove.Proper, NodeData.IsText]
  exact htree.wellFormed rfl (by decide)

theorem splitOff_divides_twoParagraphs : twoParagraphs.WellFormed ∧ twoParagraphs.root ∈ twoParagraphs.ancestors ⟨0, 5⟩ ∧
    ∃ part e, twoParagraphs.splitOff twoParagraphs.root ⟨0, 5⟩ .after = .ok (some part, e) ∧
      (e.descendants part).filter (fun n ↦ (twoParagraphs.node? n).isSome) = [⟨0, 6⟩, ⟨0, 7⟩, ⟨0, 8⟩, ⟨0, 9⟩] := by
  obtain ⟨top, part?, e, -, hparent, hon, hdivided⟩ :=
    splitOff_divides wellFormed_twoParagraphs (show twoParagraphs.root ∈ twoParagraphs.ancestors ⟨0, 5⟩ by decide) .after
  obtain rfl : top = ⟨0, 1⟩ := by
    have hchildren : twoParagraphs.children twoParagraphs.root = [⟨0, 1⟩] := by decide
    have hchild := (wellFormed_twoParagraphs.linked _ _).2 hparent
    rw [hchildren] at hchild
    exact List.mem_singleton.1 hchild
  have haside : twoParagraphs.aside .after ⟨0, 1⟩ ⟨0, 5⟩ = [⟨0, 6⟩, ⟨0, 7⟩, ⟨0, 8⟩, ⟨0, 9⟩] := by decide
  cases part? with
  | none =>
    have hnone := hdivided.part?_eq_none.1 rfl
    rw [haside] at hnone
    contradiction
  | some part => exact ⟨wellFormed_twoParagraphs, by decide, part, e, hon, (hdivided.portion part rfl).nodes.trans haside⟩

end Document

end Stencil
