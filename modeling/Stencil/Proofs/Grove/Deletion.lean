import Stencil.Proofs.Grove.Fork
import Stencil.Proofs.Grove.Lineage
import Stencil.Proofs.Run.Area
/-!
Areas of trees of any shape, and their deletion. An area is isolated by two divisions, one on each
side; what remains of the tree when it is deleted is what stood before its opening marker and what
stood behind its closing one.
-/

namespace Stencil

open Grove Document

variable {r : RunState} {inner outer gs : List Frame} {p x y : NodeId} {pdata xdata ydata : NodeData}
  {a b c m xsub ysub : Grove}

namespace Area

theorem summit_clear (side : Side) (fs : List Frame) (id : NodeId) : summit (fs.map side.clear) id = summit fs id := by
  have hchain : chain (fs.map side.clear) = chain fs := by simp [chain, Function.comp_def]
  rw [summit, summit, hchain]

/-- What stands before the opening marker below the fork, and behind the closing one, is put beside
the children that hold the markers. -/
theorem isolate_fork (hd : r.document.Forest)
    (h : r.document.Stands (fork outer p pdata a (plug inner (.single x xdata xsub)) b (plug gs (.single y ydata ysub)) c))
    (htop : summit outer p = r.document.root) : ∃ r' q q',
      (isolate x y).on r = (.ok ⟨p, x, y, summit inner x, summit gs y,
        .ofEnds (a ++ q).tops.length ((a ++ q).tops.length + 1 + b.tops.length)⟩, r') ∧
      Parts .before r.document inner bare q ∧ Parts .after r.document gs bare q' ∧ r'.document.Forest ∧
      Grows r.document r'.document ∧ r'.document.Stands (fork outer p pdata (a ++ q)
        (plug (inner.map Side.before.clear) (.single x xdata xsub)) b
        (plug (gs.map Side.after.clear) (.single y ydata ysub)) (q' ++ c)) := by
  obtain ⟨q, e, hbefore, hq, he, h₁, hg₁, -⟩ := h.fork_left.splitOff .before hd
  have h₁ : e.Stands (fork outer p pdata (a ++ q) (plug (inner.map Side.before.clear) (.single x xdata xsub)) b
      (plug gs (.single y ydata ysub)) c) := by
    simpa only [fork, Side.lay, append_assoc] using h₁
  obtain ⟨q', e', hafter, hq', he', h₂, hg₂, -⟩ := h₁.fork_right.splitOff .after he
  have h₂ : e'.Stands (fork outer p pdata (a ++ q) (plug (inner.map Side.before.clear) (.single x xdata xsub)) b
      (plug (gs.map Side.after.clear) (.single y ydata ysub)) (q' ++ c)) := by
    simpa only [fork, Side.lay, append_assoc] using h₂
  have hg := hg₁.trans hg₂
  obtain ⟨hresolve, -⟩ := h.fork_resolve hd.wellFormed.topmost (by rw [tops_plug, htop])
  obtain ⟨hresolve', -⟩ := h₂.fork_resolve he'.wellFormed.topmost (by rw [tops_plug, htop, hg.root])
  rw [summit_clear, summit_clear] at hresolve'
  have hbefore' : (Run.editFor fun d ↦ d.splitOff p x .before).on r = (.ok q.tops.head?, { r with document := e }) :=
    Run.on_editFor hbefore
  have hafter' : (Run.editFor fun d ↦ d.splitOff p y .after).on { r with document := e } =
      (.ok q'.tops.head?, { r with document := e' }) := Run.on_editFor (r := { r with document := e }) hafter
  have hstart : (isolate x y).on r = (do
      if q.tops.head?.isNone && q'.tops.head?.isNone then
        return (⟨p, x, y, summit inner x, summit gs y, .ofEnds a.tops.length (a.tops.length + 1 + b.tops.length)⟩ : Area)
      Run.log (.splitBoundaries q.tops.head?.isSome q'.tops.head?.isSome)
      Run.ofExcept .area (resolve (← Run.document) x y) : Run Area).on { r with document := e' } := by
    rw [isolate, Run.on_bind_ok (Run.on_document r), hresolve, Run.on_bind_ok (Run.on_ofExcept_ok _ _ r),
      Run.on_bind_ok hbefore', Run.on_bind_ok hafter']
  by_cases hboth : (q.tops.head?.isNone && q'.tops.head?.isNone) = true
  · obtain ⟨hb, ha⟩ : q = bare ∧ q' = bare := by
      simp only [Bool.and_eq_true, Option.isNone_iff_eq_none, List.head?_eq_none_iff] at hboth
      exact ⟨eq_bare_of_tops hboth.1, eq_bare_of_tops hboth.2⟩
    refine ⟨{ r with document := e' }, q, q', ?_, hq, hq'.mono hg₁, he', hg, h₂⟩
    rw [hstart, if_pos hboth, Run.on_pure, hb, append_bare]
  · refine ⟨{ r with document := e', log := .splitBoundaries q.tops.head?.isSome q'.tops.head?.isSome :: r.log }, q, q', ?_,
      hq, hq'.mono hg₁, he', hg, h₂⟩
    rw [hstart, if_neg hboth, Run.on_bind_ok (Run.on_log _ _), Run.on_bind_ok (Run.on_document _)]
    dsimp only
    rw [hresolve', Run.on_ofExcept_ok]

theorem detach_tops : ∀ (m : Grove) (r : RunState), r.document.Forest → r.document.Stands (plug outer (.single p pdata (a ++ m ++ c))) →
    ∃ e, (m.tops.forM Run.detach).on r = (.ok (), { r with document := e }) ∧ e.Forest ∧
      e.Stands (plug outer (.single p pdata (a ++ c))) ∧ Grows r.document e
  | .bare, r, hd, h => ⟨r.document, rfl, hd, by rwa [append_bare] at h, .refl _⟩
  | .tree id data below rest, r, hd, h => by
    have hplace : r.document.Stands (plug (⟨p, pdata, a, rest ++ c⟩ :: outer) (.single id data below)) := by
      rw [tree_eq, append_assoc, append_assoc, ← append_assoc a] at h
      exact h
    obtain ⟨e, he, hforest, hstands, hgrows⟩ := hplace.detach hd
    obtain ⟨e', hrest, hforest', hstands', hgrows'⟩ := detach_tops rest { r with document := e } hforest
      (by rw [append_assoc]; exact hstands)
    have hdetach : (Run.detach id).on r = (.ok (), { r with document := e }) := Run.on_edit he
    refine ⟨e', ?_, hforest', hstands', hgrows.trans hgrows'⟩
    rw [tops, List.forM, Run.on_bind_ok hdetach, hrest]

theorem tops_area (b : Grove) : (plug inner (.single x xdata xsub) ++ b ++ plug gs (.single y ydata ysub)).tops =
    summit inner x :: (b.tops ++ [summit gs y]) := by
  simp [tops_plug]

theorem nodes_fork {d : Document}
    (h : d.Stands (fork outer p pdata a (plug inner (.single x xdata xsub)) b (plug gs (.single y ydata ysub)) c)) :
    nodes d ⟨p, x, y, summit inner x, summit gs y, .ofEnds a.tops.length (a.tops.length + 1 + b.tops.length)⟩ =
      summit inner x :: (b.tops ++ [summit gs y]) := by
  have hchildren : d.children p = a.tops ++ (summit inner x :: (b.tops ++ [summit gs y])) ++ c.tops := by
    rw [h.children]
    simp [tops_plug]
  have hlow : (IndexRange.ofEnds a.tops.length (a.tops.length + 1 + b.tops.length)).low = a.tops.length := by
    simp [IndexRange.ofEnds, Nat.add_assoc]
  have hhigh : (IndexRange.ofEnds a.tops.length (a.tops.length + 1 + b.tops.length)).high = a.tops.length + 1 + b.tops.length := by
    simp [IndexRange.ofEnds, Nat.add_assoc]
  rw [nodes, nodesIn, hchildren, hlow, hhigh, List.take_left' (by simp; omega), List.drop_left' rfl]

theorem delete_fork (hd : r.document.Forest)
    (h : r.document.Stands (fork outer p pdata a (plug inner (.single x xdata xsub)) b (plug gs (.single y ydata ysub)) c)) :
    ∃ r', (delete ⟨p, x, y, summit inner x, summit gs y, .ofEnds a.tops.length (a.tops.length + 1 + b.tops.length)⟩ none true).on r =
        (.ok (some (.toward (c.order ++ behind outer).head?)), r') ∧ r'.document.Forest ∧ Grows r.document r'.document ∧
      r'.document.Stands (plug outer (.single p pdata (a ++ c))) := by
  let area : Area := ⟨p, x, y, summit inner x, summit gs y, .ofEnds a.tops.length (a.tops.length + 1 + b.tops.length)⟩
  have hrange : (area.range.contains area.range.low && area.range.contains area.range.high) = true := by
    have := area.range.low_le_high
    simp [this]
  have hdoomed : area.nodesIn r.document area.range = summit inner x :: (b.tops ++ [summit gs y]) := nodes_fork h
  have hnext : r.document.nextAfter? (summit gs y) = (c.order ++ behind outer).head? := by
    obtain ⟨-, hr⟩ := h.fork_child
    obtain ⟨rdata, rsub, heq⟩ := exists_summit gs y ydata ysub
    rw [heq] at hr
    exact hr.nextAfter?
  let r₁ : RunState := { r with log := .deletingArea (area.nodesIn r.document area.range).length area.range :: r.log }
  obtain ⟨e, hon, hforest, hstands, hgrows⟩ := detach_tops (plug inner (.single x xdata xsub) ++ b ++ plug gs (.single y ydata ysub))
    r₁ hd (by simpa only [r₁, fork, append_assoc] using h)
  rw [tops_area, ← hdoomed] at hon
  refine ⟨{ r₁ with document := e }, ?_, hforest, hgrows, hstands⟩
  have hwhole : (area.delete none true).on r = (do
      (area.nodesIn r.document area.range).forM Run.detach
      return some (Continuation.ofNode r.document (some area.last) true) : Run (Option Continuation)).on r₁ := by
    rw [delete, Option.getD_none, hrange]
    rfl
  rw [hwhole, Run.on_bind_ok hon, Continuation.ofNode_behind, hnext, Run.on_pure]

end Area

/-! ### What a deletion leaves -/

/-- A node with what it holds and what the nodes above it hold, as a document has them. -/
def Document.account (d : Document) (id : NodeId) : NodeId × Option NodeData × List (Option NodeData) :=
  (id, d.data? id, (d.ancestors id).map d.data?)

/-- Whether a document has a node that is above neither of two others. -/
def Document.beside (d : Document) (opening closing id : NodeId) : Bool :=
  (d.node? id).isSome && !(d.ancestors opening).contains id && !(d.ancestors closing).contains id

namespace Area

/-- Nodes `new` of a later document are what remains of nodes `old`: those above neither marker are
all there, in their order, with what they held and below elements like those they were below. What
is new among them is above some of them. -/
structure Remains (d e : Document) (opening closing : NodeId) (old new : List NodeId) : Prop where
  kept : (new.filter (d.beside opening closing)).map e.account = (old.filter (d.beside opening closing)).map d.account
  made : ∀ id ∈ new, id ∈ old ∨ d.node? id = none ∧ ∃ k ∈ old, k ∈ e.descendants id

/-- What the deletion of an area makes of a document in which `xs` are the nodes before the opening
marker and `zs` those behind the closing one, and where the scan goes on. -/
structure Deleted (d e : Document) (opening closing : NodeId) (xs zs : List NodeId) (next : Continuation) : Prop where
  wellFormed : e.WellFormed
  root : e.root = d.root
  attached : ∀ id, d.beside opening closing id = true → (e.isAttached id = true ↔ id ∈ xs ∨ id ∈ zs)
  text : e.textContent e.root = String.join (xs.filterMap d.text?) ++ String.join (zs.filterMap d.text?)
  parts : ∃ front rear, e.descendants e.root = front ++ rear ∧ Remains d e opening closing xs front ∧
    Remains d e opening closing zs rear ∧ next = .toward rear.head?
  resumes : ∀ id, next = .at id → e.isAttached id = true

theorem Remains.filter_eq {d e : Document} {opening closing : NodeId} {old new : List NodeId} (h : Remains d e opening closing old new) :
    new.filter (d.beside opening closing) = old.filter (d.beside opening closing) := by
  have hfst : ∀ d : Document, Prod.fst ∘ d.account = id := fun _ ↦ rfl
  simpa [hfst] using congrArg (List.map Prod.fst) h.kept

/-- A node that is above neither marker is there if it was there. -/
theorem Remains.mem_iff {d e : Document} {opening closing id : NodeId} {old new : List NodeId}
    (h : Remains d e opening closing old new) (hid : d.beside opening closing id = true) : id ∈ new ↔ id ∈ old := by
  have hmem := congrArg (id ∈ ·) h.filter_eq
  simpa [hid] using hmem

end Area

def Lineage.account? (P : NodeId → Bool) (l : Lineage) : Option (NodeId × Option NodeData × List (Option NodeData)) :=
  if P l.id then some (l.id, some l.data, l.above.map some) else none

def Lineage.text? (l : Lineage) : Option String :=
  match l.data with
  | .text s => some s
  | .element .. => none

namespace Area

section Reading

variable {d : Document} {ls : List Lineage} (h : ∀ l ∈ ls, d.Agrees l)

include h

theorem map_account (P : NodeId → Bool) : ((ls.map Lineage.id).filter P).map d.account = ls.filterMap (Lineage.account? P) := by
  induction ls with
  | nil => rfl
  | cons l ls ih =>
    rw [List.forall_mem_cons] at h
    rw [List.map_cons, List.filter_cons, List.filterMap_cons, Lineage.account?]
    by_cases hl : P l.id = true
    · rw [if_pos hl, if_pos hl, List.map_cons, ih h.2, account, h.1.1, h.1.2]
    · rw [if_neg hl, if_neg hl, ih h.2]

theorem filterMap_text : (ls.map Lineage.id).filterMap d.text? = ls.filterMap Lineage.text? := by
  induction ls with
  | nil => rfl
  | cons l ls ih =>
    rw [List.forall_mem_cons] at h
    have htext : d.text? l.id = l.text? := by
      rw [text?, h.1.1, Lineage.text?]
      cases l.data <;> rfl
    rw [List.map_cons, List.filterMap_cons, List.filterMap_cons, htext, ih h.2]

end Reading

/-- The nodes up to a place among the children of a node: those before it, it, and what stands on the
left, with more nodes behind that. -/
def linesFront (outer : List Frame) (p : NodeId) (pdata : NodeData) (a : Grove) (ls : List Lineage) : List Lineage :=
  linesBefore [] outer ++ ⟨p, pdata, datas outer⟩ :: (a.lineages (pdata :: datas outer) ++ ls)

/-- The nodes from a place among the children of a node on: what stands on the right, with more nodes
before that, and those behind it. -/
def linesRear (outer : List Frame) (pdata : NodeData) (c : Grove) (ls : List Lineage) : List Lineage :=
  ls ++ (c.lineages (pdata :: datas outer) ++ linesBehind [] outer)

theorem linesFront_id (outer inner : List Frame) (p : NodeId) (pdata : NodeData) (a q : Grove) :
    (linesFront outer p pdata a (q.lineages (pdata :: datas outer))).map Lineage.id = before outer ++ p :: (a.order ++ q.order) ∧
      (linesFront outer p pdata a (linesBefore (pdata :: datas outer) inner)).map Lineage.id =
        before outer ++ p :: (a.order ++ before inner) := by
  simp [linesFront, linesBefore_id, lineages_id]

theorem linesRear_id (outer gs : List Frame) (pdata : NodeData) (q c : Grove) :
    (linesRear outer pdata c (q.lineages (pdata :: datas outer))).map Lineage.id = (q ++ c).order ++ behind outer ∧
      (linesRear outer pdata c (linesBehind (pdata :: datas outer) gs)).map Lineage.id = behind gs ++ c.order ++ behind outer := by
  simp [linesRear, linesBehind_id, lineages_id]

theorem lineages_rest (a q m q' c : Grove) : (plug outer (.single p pdata (a ++ q ++ (m ++ (q' ++ c))))).lineages [] =
    linesFront outer p pdata a (q.lineages (pdata :: datas outer)) ++ (m.lineages (pdata :: datas outer) ++
      linesRear outer pdata c (q'.lineages (pdata :: datas outer))) := by
  simp [lineages_plug, linesFront, linesRear]

section Leftover

variable {d e : Document} {q q' : Grove}
  (h : d.Stands (fork outer p pdata a (plug inner (.single x xdata xsub)) b (plug gs (.single y ydata ysub)) c))
  (hq : Parts .before d inner bare q) (hq' : Parts .after d gs bare q') (hg : Grows d e)
  (hrest : e.Stands (plug outer (.single p pdata (a ++ q ++ (m ++ (q' ++ c))))))

include h

theorem agrees_fork : (∀ l ∈ linesFront outer p pdata a (linesBefore (pdata :: datas outer) inner), d.Agrees l) ∧
    ∀ l ∈ linesRear outer pdata c (linesBehind (pdata :: datas outer) gs), d.Agrees l := by
  have hall := Stands.agrees h
  constructor <;> intro l hl <;> refine hall l ?_ <;>
    simp only [linesFront, linesRear, List.mem_append, List.mem_cons] at hl <;>
    simp only [fork, lineages_plug, lineages_single, lineages_append, List.append_nil, List.mem_append, List.mem_cons] <;> tauto

/-- Neither the nodes above a marker nor new ones are beside the markers. -/
theorem beside_eq_false {id : NodeId} (hid : id ∈ chain inner ∨ id ∈ chain gs ∨ d.node? id = none) : d.beside x y id = false := by
  obtain ⟨hx, hy⟩ := h.fork_ancestors
  rcases hid with hid | hid | hid <;> simp [beside, hx, hy, hid]

/-- A reading that tells the nodes beside the markers apart passes over what a division makes. -/
theorem account?_passes {side : Side} {fs : List Frame} {q : Grove} (hq : Parts side d fs bare q)
    (hfs : chain fs ⊆ chain inner ∨ chain fs ⊆ chain gs) (above : List NodeData) :
    (q.lineages above).filterMap (Lineage.account? (d.beside x y)) =
      (side.lines above fs).filterMap (Lineage.account? (d.beside x y)) := by
  have hframe : ∀ f ∈ fs, d.beside x y f.id = false := fun f hf ↦ by
    have hin : f.id ∈ chain fs := List.mem_map_of_mem hf
    exact beside_eq_false h (hfs.elim (fun hsub ↦ .inl (hsub hin)) fun hsub ↦ .inr (.inl (hsub hin)))
  rw [hq.filterMap_lineages _ (fun f hf _ ↦ by simp [Lineage.account?, hframe f hf])
    fun f _ shell _ hnew ↦ by simp [Lineage.account?, beside_eq_false h (.inr (.inr hnew))]]
  cases side <;> simp [Side.lay]

omit h in
theorem text?_frame {f : Frame} (hf : f.Proper) (id : NodeId) (above : List NodeData) : Lineage.text? ⟨id, f.data, above⟩ = none := by
  rw [Lineage.text?]
  cases hdata : f.data with
  | element => rfl
  | text s => exact absurd ⟨s, hdata⟩ hf.element

omit h in
theorem text?_passes {side : Side} {fs : List Frame} {q : Grove} (hq : Parts side d fs bare q)
    (hfs : ∀ f ∈ fs, f.Proper) (above : List NodeData) :
    (q.lineages above).filterMap Lineage.text? = (side.lines above fs).filterMap Lineage.text? := by
  rw [hq.filterMap_lineages _ (fun f hf _ ↦ text?_frame (hfs f hf) _ _) fun f hf _ _ _ ↦ text?_frame (hfs f hf) _ _]
  cases side <;> simp [Side.lay]

omit h in
/-- What is new in a division stands, in the tree it is put in, above something that stood on its side. -/
theorem made_of_parts {side : Side} {fs : List Frame} {q left right : Grove} (hq : Parts side d fs bare q)
    (hfs : ∀ f ∈ fs, ∀ id ∈ (side.of f).order, d.node? id ≠ none) (hstands : e.Stands (plug outer (.single p pdata (left ++ q ++ right)))) :
    ∀ id ∈ q.order, id ∈ side.beyond fs ∨ d.node? id = none ∧ ∃ k ∈ side.beyond fs, k ∈ e.descendants id := fun id hid ↦ by
  by_cases hnone : d.node? id = none
  · obtain ⟨l, r, below, data, gs, rfl⟩ := Grove.exists_place hid
    have hplace : e.Stands (plug (gs ++ ⟨p, pdata, left ++ l, r ++ right⟩ :: outer) (.single id data below)) := by
      rw [plug_append, plug_cons]
      simpa only [append_assoc] using hstands
    have hfilled := (filled_append.1 (filled_append.1 (hq.filled hfs trivial)).1).2.of_plug
    obtain ⟨k, hk, hknown⟩ := (filled_single.1 hfilled).1 hnone
    have hin : k ∈ (l ++ plug gs (.single id data below) ++ r).order := by simp [order_plug, hk]
    refine .inr ⟨hnone, k, (hq.mem hknown hin).resolve_left (by simp), ?_⟩
    rw [hplace.descendants]
    exact List.mem_cons_of_mem _ hk
  · exact .inl ((hq.mem hnone hid).resolve_left (by simp))

theorem known_beside : (∀ f ∈ inner, ∀ id ∈ (Side.before.of f).order, d.node? id ≠ none) ∧
    ∀ f ∈ gs, ∀ id ∈ (Side.after.of f).order, d.node? id ≠ none := by
  constructor <;> intro f hf id hid <;> refine h.holds.known id ?_ <;> have hin := Side.mem_beyond hf hid <;>
    simp only [Side.beyond] at hin <;> simp [fork, order_plug, hin]

include hrest

/-- Before the area there remains what stood before its opening marker. -/
theorem remains_before (hq : Parts .before d inner bare q) :
    Remains d e x y (before outer ++ p :: (a.order ++ before inner)) (before outer ++ p :: (a.order ++ q.order)) := by
  have hnew := hrest.agrees
  rw [lineages_rest, List.forall_mem_append, List.forall_mem_append] at hnew
  have hpass := account?_passes h hq (.inl fun _ hid ↦ hid) (pdata :: datas outer)
  obtain ⟨hids, hids'⟩ := linesFront_id outer inner p pdata a q
  constructor
  · rw [← hids, ← hids', map_account hnew.1, map_account (agrees_fork h).1]
    simp only [linesFront, List.filterMap_append, List.filterMap_cons, hpass, Side.lines]
  · intro id hid
    have hmade := made_of_parts hq (known_beside h).1 hrest
    simp only [List.mem_append, List.mem_cons] at hid ⊢
    rcases hid with hid | hid | hid | hid
    · exact .inl (.inl hid)
    · exact .inl (.inr (.inl hid))
    · exact .inl (.inr (.inr (.inl hid)))
    · rcases hmade id hid with hid | ⟨hnone, k, hk, hbelow⟩
      · exact .inl (.inr (.inr (.inr hid)))
      · exact .inr ⟨hnone, k, .inr (.inr (.inr hk)), hbelow⟩

/-- Behind the area there remains what stood behind its closing marker. -/
theorem remains_behind (hq' : Parts .after d gs bare q') :
    Remains d e x y (behind gs ++ c.order ++ behind outer) ((q' ++ c).order ++ behind outer) := by
  have hnew := hrest.agrees
  rw [lineages_rest, List.forall_mem_append, List.forall_mem_append] at hnew
  have hpass := account?_passes h hq' (.inr fun _ hid ↦ hid) (pdata :: datas outer)
  obtain ⟨hids, hids'⟩ := linesRear_id outer gs pdata q' c
  constructor
  · rw [← hids, ← hids', map_account hnew.2.2, map_account (agrees_fork h).2]
    simp only [linesRear, List.filterMap_append, hpass, Side.lines]
  · intro id hid
    have hstands : e.Stands (plug outer (.single p pdata (a ++ q ++ m ++ q' ++ c))) := by
      rwa [append_assoc (a ++ q ++ m), append_assoc (a ++ q)]
    have hmade := made_of_parts hq' (known_beside h).2 hstands
    simp only [order_append, List.mem_append] at hid ⊢
    rcases hid with (hid | hid) | hid
    · rcases hmade id hid with hid | ⟨hnone, k, hk, hbelow⟩
      · exact .inl (.inl (.inl hid))
      · exact .inr ⟨hnone, k, .inl (.inl hk), hbelow⟩
    · exact .inl (.inl (.inr hid))
    · exact .inl (.inr hid)

/-- The texts of the tree are those that stood before the area, those in its place and those that
stood behind it. -/
theorem text_remains (hq : Parts .before d inner bare q) (hq' : Parts .after d gs bare q') :
    (plug outer (.single p pdata (a ++ q ++ (m ++ (q' ++ c))))).order.filterMap e.text? =
      (before outer ++ p :: (a.order ++ before inner)).filterMap d.text? ++
        ((m.lineages (pdata :: datas outer)).filterMap Lineage.text? ++
          (behind gs ++ c.order ++ behind outer).filterMap d.text?) := by
  have hinner : ∀ f ∈ inner, f.Proper := fun f hf ↦ h.fork_left.proper_frames f (List.mem_append_left _ hf)
  have hgs : ∀ f ∈ gs, f.Proper := fun f hf ↦ h.fork_right.proper_frames f (List.mem_append_left _ hf)
  have hpass := text?_passes hq hinner (pdata :: datas outer)
  have hpass' := text?_passes hq' hgs (pdata :: datas outer)
  have hrestid : ((plug outer (.single p pdata (a ++ q ++ (m ++ (q' ++ c))))).lineages []).map Lineage.id = _ := lineages_id
  rw [← hrestid, filterMap_text hrest.agrees, lineages_rest, ← (linesFront_id outer inner p pdata a q).2,
    ← (linesRear_id outer gs pdata q' c).2, filterMap_text (agrees_fork h).1, filterMap_text (agrees_fork h).2]
  simp only [linesFront, linesRear, List.filterMap_append, List.filterMap_cons, hpass, hpass', Side.lines]

omit hrest in
theorem deleted_fork (hleft : e.Stands (plug outer (.single p pdata (a ++ q ++ (q' ++ c))))) (htop : summit outer p = d.root)
    (hq : Parts .before d inner bare q) (hq' : Parts .after d gs bare q') (he : e.Forest) (hg : Grows d e) :
    Deleted d e x y (before outer ++ p :: (a.order ++ before inner)) (behind gs ++ c.order ++ behind outer)
      (.toward ((q' ++ c).order ++ behind outer).head?) := by
  have hrest : e.Stands (plug outer (.single p pdata (a ++ q ++ (bare ++ (q' ++ c))))) := hleft
  have hbefore := remains_before h hrest hq
  have hbehind := remains_behind h hrest hq'
  have horder := hrest.descendants_root (by rw [tops_plug, htop, hg.root])
  have hparts : e.descendants e.root = (before outer ++ p :: (a.order ++ q.order)) ++ ((q' ++ c).order ++ behind outer) := by
    rw [horder, order_plug]
    simp
  refine ⟨he.wellFormed, hg.root, fun id hid ↦ ?_, ?_, ⟨_, _, hparts, hbefore, hbehind, rfl⟩, fun id hnext ↦ ?_⟩
  · rw [he.isAttached_iff_mem, hparts, List.mem_append, hbefore.mem_iff hid, hbehind.mem_iff hid]
  · rw [textContent, horder, text_remains h hrest hq hq', lineages_bare, List.filterMap_nil, List.nil_append, String.join_append]
  · rw [he.isAttached_iff_mem, hparts]
    exact List.mem_append_right _ (List.mem_of_mem_head? (Continuation.toward_eq_at hnext))

end Leftover

def deleteBetween (opening closing : NodeId) : Run (Option Continuation) := do
  let area ← isolate opening closing
  area.delete none true

theorem mem_of_above {d : Document} (hd : d.Forest) {id top : NodeId} (hid : d.node? id ≠ none) (htop : top ∈ id :: d.ancestors id)
    (hattached : d.isAttached top = true) : id ∈ d.descendants d.root := by
  obtain ⟨sub, data, fs, hT⟩ := hd.exists_place hid
  rw [hT.ancestors] at htop
  obtain ⟨g, hg, -, horder⟩ := hd.exists_root
  rw [hd.isAttached_iff_mem, horder] at hattached
  rw [horder, hg.unique hT hattached (chain_subset_order htop)]
  exact chain_subset_order (List.mem_cons_self ..)

/-- There is no area between nodes of which the second is not behind the first in the tree. -/
theorem resolve_error {d : Document} (hd : d.Forest) (hx : d.isText x = true) (hy : d.isText y = true)
    (hnot : ∀ xs ys zs, d.descendants d.root ≠ xs ++ x :: (ys ++ y :: zs)) : ∃ cause, resolve d x y = .error cause := by
  have hknown : ∀ {z : NodeId}, d.isText z = true → d.node? z ≠ none := fun hz hnone ↦ by
    simp [isText, text?, data?, hnone] at hz
  cases hancestor : ancestorOf d x y with
  | error cause => exact ⟨cause, by rw [resolve, hancestor]; rfl⟩
  | ok top =>
    -- both nodes are in the tree, and they differ
    rw [ancestorOf] at hancestor
    split_ifs at hancestor with hsame
    cases hcommon : d.commonAncestor? x y with
    | none => simp [hcommon] at hancestor
    | some above =>
      rw [hcommon] at hancestor
      dsimp only at hancestor
      split_ifs at hancestor with hdetached
      have hattached : d.isAttached above = true := by simpa using hdetached
      have habovex : above ∈ x :: d.ancestors x := by simpa [commonAncestor?] using List.find?_some hcommon
      have habovey : above ∈ y :: d.ancestors y := List.mem_of_find?_eq_some hcommon
      have hxin := mem_of_above hd (hknown hx) habovex hattached
      have hyin := mem_of_above hd (hknown hy) habovey hattached
      obtain ⟨g, hg, htops, horder⟩ := hd.exists_root
      rw [horder] at hxin hyin hnot
      obtain ⟨before, rest, hsplit⟩ := List.append_of_mem hxin
      rw [hsplit, List.mem_append, List.mem_cons] at hyin
      rcases hyin with hyin | hyin | hyin
      · -- the second one comes first
        obtain ⟨xs, ys, rfl⟩ := List.append_of_mem hyin
        have hreversed : g.order = xs ++ y :: (ys ++ x :: rest) := by rw [hsplit]; simp
        obtain ⟨outer, p, pdata, a, inner, ydata, b, gs, xdata, c, rfl, -, -⟩ := hg.exists_fork hreversed hy hx
        exact ⟨_, (hg.fork_resolve hd.wellFormed.topmost htops).2⟩
      · exact absurd hyin.symm hsame
      · obtain ⟨ys, zs, rfl⟩ := List.append_of_mem hyin
        exact absurd hsplit (hnot before ys zs)

/-- The deletion of an area. Between two texts of the tree, the first before the second, it leaves
what stood before the first and behind the second, and nothing else but new elements around that;
otherwise there is no area, and nothing happens. -/
theorem deleteBetween_on (h : r.document.WellFormed) (hx : r.document.isText x = true) (hy : r.document.isText y = true) :
    (∀ xs ys zs, r.document.descendants r.document.root = xs ++ x :: (ys ++ y :: zs) → ∃ next r',
      (deleteBetween x y).on r = (.ok (some next), r') ∧ Deleted r.document r'.document x y xs zs next) ∧
    ((∀ xs ys zs, r.document.descendants r.document.root ≠ xs ++ x :: (ys ++ y :: zs)) →
      ∃ cause, (deleteBetween x y).on r = (.error (.area cause), r)) := by
  have hd := h.forest
  refine ⟨fun xs ys zs hsplit ↦ ?_, fun hnot ↦ ?_⟩
  · obtain ⟨g, hg, htops, horder⟩ := hd.exists_root
    rw [horder] at hsplit
    obtain ⟨outer, p, pdata, a, inner, xdata, b, gs, ydata, c, rfl, rfl, rfl⟩ := hg.exists_fork hsplit hx hy
    have htop : summit outer p = r.document.root := by
      rw [tops_plug] at htops
      exact (List.cons.inj htops).1
    obtain ⟨r₁, q, q', hisolate, hq, hq', hd₁, hg₁, h₁⟩ := isolate_fork hd hg htop
    obtain ⟨r₂, hdelete, hd₂, hg₂, h₂⟩ := delete_fork hd₁ h₁
    rw [summit_clear, summit_clear] at hdelete
    refine ⟨_, r₂, ?_, deleted_fork hg h₂ htop hq hq' hd₂ (hg₁.trans hg₂)⟩
    rw [deleteBetween, Run.on_bind_ok hisolate, hdelete]
  · obtain ⟨cause, hcause⟩ := resolve_error hd hx hy hnot
    refine ⟨cause, ?_⟩
    rw [deleteBetween, Run.on_bind_error]
    rw [isolate, Run.on_bind_ok (Run.on_document r), hcause, Run.on_bind_error (Run.on_ofExcept_error _ _ r)]

theorem deleteBetween_shared : ∃ (r r' : RunState) (next : Continuation), r.document.WellFormed ∧
    (deleteBetween ⟨0, 3⟩ ⟨0, 5⟩).on r = (.ok (some next), r') ∧ r'.document.textContent r'.document.root = "az" := by
  let t : Grove := .single ⟨0, 0⟩ (.element "doc" [])
    (.tree ⟨0, 1⟩ (.element "p" []) (.tree ⟨0, 2⟩ (.text "a") .bare (.single ⟨0, 3⟩ (.text "begin") .bare))
      (.single ⟨0, 4⟩ (.element "p" []) (.tree ⟨0, 5⟩ (.text "end") .bare (.single ⟨0, 6⟩ (.text "z") .bare))))
  let d : Document := ⟨0, #[⟨.element "doc" [], none, [⟨0, 1⟩, ⟨0, 4⟩]⟩, ⟨.element "p" [], some ⟨0, 0⟩, [⟨0, 2⟩, ⟨0, 3⟩]⟩,
    ⟨.text "a", some ⟨0, 1⟩, []⟩, ⟨.text "begin", some ⟨0, 1⟩, []⟩, ⟨.element "p" [], some ⟨0, 0⟩, [⟨0, 5⟩, ⟨0, 6⟩]⟩,
    ⟨.text "end", some ⟨0, 4⟩, []⟩, ⟨.text "z", some ⟨0, 4⟩, []⟩]⟩
  have hstands : d.Stands t := by
    refine ⟨⟨_, _, _, rfl⟩, ?_, by decide, ?_⟩
    · simp [d, t, Holds, Grove.single, tops, node?]
    · simp [t, Grove.Proper, Grove.single, NodeData.IsText]
  have hforest : d.Forest := by
    refine ⟨⟨t, hstands, rfl⟩, fun id hid ↦ ⟨t, hstands, ?_⟩⟩
    obtain ⟨document, index⟩ := id
    obtain ⟨n, hn⟩ := Option.ne_none_iff_exists'.1 hid
    obtain rfl : document = 0 := document_eq hn
    have hindex : index < 7 := index_lt_size hn
    interval_cases index <;> decide
  let r : RunState := ⟨d, .ofData .null, [], Services.ofTtl 0, .empty, 0, 1, []⟩
  have hdelete := (deleteBetween_on (r := r) (x := ⟨0, 3⟩) (y := ⟨0, 5⟩) hforest.wellFormed rfl rfl).1
    [⟨0, 0⟩, ⟨0, 1⟩, ⟨0, 2⟩] [⟨0, 4⟩] [⟨0, 6⟩] rfl
  obtain ⟨next, r', hon, hdeleted⟩ := hdelete
  exact ⟨r, r', next, hforest.wellFormed, hon, hdeleted.text⟩

end Area

end Stencil
