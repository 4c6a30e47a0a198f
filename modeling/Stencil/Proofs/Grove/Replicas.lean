import Stencil.Proofs.Grove.Partition
import Stencil.Proofs.Grove.Replication
/-!
Areas put in many copies. Each copy has a new node for every node of the area, below the copy of what
that one is below, and holds the same but for its two markers; what stood before and behind the area
stays, and the area itself is taken out of the tree.
-/

namespace Stencil

open Grove Document

structure Link where
  id : NodeId
  parent : NodeId
  data : NodeData

def Link.rename (σ : NodeId → NodeId) (l : Link) : Link := ⟨σ l.id, σ l.parent, l.data⟩

namespace Grove

def links (p : NodeId) : Grove → List Link
  | bare => []
  | tree id data below rest => ⟨id, p, data⟩ :: (links id below ++ links p rest)

def foot (p : NodeId) (fs : List Frame) : NodeId := ((chain fs).head?).getD p

/-- The nodes before a place of trees below a node, and those behind it. -/
def linksBefore (p : NodeId) : List Frame → List Link
  | [] => []
  | f :: fs => linksBefore p fs ++ ⟨f.id, foot p fs, f.data⟩ :: f.left.links f.id

@[inherit_doc linksBefore]
def linksBehind (p : NodeId) : List Frame → List Link
  | [] => []
  | f :: fs => f.right.links f.id ++ linksBehind p fs

variable {f g g' : Grove} {fs : List Frame} {p : NodeId}

@[simp] theorem links_append : (f ++ g).links p = f.links p ++ g.links p := by
  induction f with
  | bare => rfl
  | tree id data below rest _ ih => simp only [tree_append, links, ih, List.cons_append, List.append_assoc]

@[simp] theorem links_single (id : NodeId) (data : NodeData) : (single id data g).links p = ⟨id, p, data⟩ :: g.links id := by
  simp [single, links]

theorem links_plug : (plug fs g).links p = linksBefore p fs ++ g.links (foot p fs) ++ linksBehind p fs := by
  induction fs generalizing g with
  | nil => simp [linksBefore, linksBehind, foot]
  | cons f fs ih => simp [plug_cons, ih, linksBefore, linksBehind, foot]

theorem links_id : (g.links p).map Link.id = g.order := by
  induction g generalizing p with
  | bare => rfl
  | tree id data below rest ihb ihr => simp [links, order, ihb, ihr]

theorem linksBefore_id : (linksBefore p fs).map Link.id = before fs := by
  induction fs with
  | nil => rfl
  | cons f fs ih => simp [linksBefore, before, ih, links_id]

theorem linksBehind_id : (linksBehind p fs).map Link.id = behind fs := by
  induction fs with
  | nil => rfl
  | cons f fs ih => simp [linksBehind, behind, ih, links_id]

theorem mem_order_of_link {l : Link} (hl : l ∈ g.links p) : l.id ∈ g.order := by
  rw [← links_id]
  exact List.mem_map_of_mem hl

theorem parent_of_link {l : Link} : ∀ {g : Grove} {p : NodeId}, l ∈ g.links p → l.parent = p ∨ l.parent ∈ g.order
  | .tree id data below rest, p, hl => by
    rw [links, List.mem_cons, List.mem_append] at hl
    rw [order, List.mem_cons, List.mem_append]
    rcases hl with rfl | hl | hl
    · exact .inl rfl
    · rcases parent_of_link hl with hparent | hparent
      · exact .inr (.inl hparent)
      · exact .inr (.inr (.inl hparent))
    · exact (parent_of_link hl).imp_right fun hparent ↦ .inr (.inr hparent)

theorem Alike.exists_renaming (h : g.Alike g') (hnodup : g.order.Nodup) : ∃ σ : NodeId → NodeId, (∀ id ∉ g.order, σ id = id) ∧
    ∀ p p', p ∉ g.order → g'.links p' = (g.links p).map (Link.rename (Function.update σ p p')) := by
  induction h with
  | bare => exact ⟨id, fun _ _ ↦ rfl, fun _ _ _ ↦ rfl⟩
  | @tree x y data f f' g g' _ _ ihf ihg =>
    rw [order, List.nodup_cons, List.mem_append, not_or, List.nodup_append] at hnodup
    obtain ⟨⟨hxf, hxg⟩, hf, hg, happart⟩ := hnodup
    obtain ⟨σf, -, hlinksf⟩ := ihf hf
    obtain ⟨σg, houtg, hlinksg⟩ := ihg hg
    refine ⟨fun id ↦ if id = x then y else if id ∈ f.order then σf id else σg id, fun id hid ↦ ?_, fun p p' hp ↦ ?_⟩
    · rw [order, List.mem_cons, List.mem_append, not_or, not_or] at hid
      dsimp only
      rw [if_neg hid.1, if_neg hid.2.1, houtg id hid.2.2]
    · rw [order, List.mem_cons, List.mem_append, not_or, not_or] at hp
      obtain ⟨hpx, hpf, hpg⟩ := hp
      have hne : ∀ {id : NodeId}, id ∈ f.order ∨ id ∈ g.order → id ≠ x ∧ id ≠ p := fun hid ↦ by
        constructor <;> rintro rfl <;> tauto
      have hnotf : ∀ {id : NodeId}, id ∈ g.order → id ∉ f.order := fun hid hin ↦ happart _ hin _ hid rfl
      rw [links, links, List.map_cons, List.map_append, hlinksf x y hxf, hlinksg p p' hpg]
      congr 1
      · simp [Link.rename, Ne.symm hpx]
      congr 1
      · apply List.map_congr_left
        intro l hl
        have hid := mem_order_of_link hl
        rcases parent_of_link hl with hparent | hparent
        · simp [Link.rename, hne (.inl hid), hid, hparent, Ne.symm hpx]
        · simp [Link.rename, hne (.inl hid), hid, hne (.inl hparent), hparent]
      · apply List.map_congr_left
        intro l hl
        have hid := mem_order_of_link hl
        rcases parent_of_link hl with hparent | hparent
        · simp [Link.rename, hne (.inr hid), hnotf hid, hparent]
        · simp [Link.rename, hne (.inr hid), hnotf hid, hne (.inr hparent), hnotf hparent]

theorem Alike.filterMap_text {above : List NodeData} (h : g.Alike g') :
    (g'.lineages above).filterMap Lineage.text? = (g.lineages above).filterMap Lineage.text? := by
  induction h generalizing above with
  | bare => rfl
  | tree _ _ ihf ihg => simp only [lineages, List.filterMap_cons, List.filterMap_append, ihf, ihg, Lineage.text?]

end Grove

namespace Document

/-- The nodes of an area between texts in document order: the nodes above the opening one that are not
above the closing one, and all from the one to the other; `ys` stand between them. -/
def between (d : Document) (opening closing : NodeId) (ys : List NodeId) : List NodeId :=
  ((d.ancestors opening).filter fun id ↦ !(d.ancestors closing).contains id).reverse ++ opening :: (ys ++ [closing])

/-- What the nodes of an area hold in a copy. -/
def rewritten (d : Document) (t : Delimiters) (opening closing : NodeId) (markers : Area.CopyMarkers) (id : NodeId) : Option NodeData :=
  if id = opening then some (.text (t.marker markers.opening))
  else if id = closing then some (.text (t.marker markers.closing))
  else d.data? id

/-- Nodes `ids` of a later document are a copy of nodes `old`: each of them is new, stands below the
copy of what the old one is below, or below that node itself, and holds the given contents. -/
def IsCopy (d e : Document) (contents : NodeId → Option NodeData) (old ids : List NodeId) : Prop :=
  ∃ σ : NodeId → NodeId, ids = old.map σ ∧ (∀ id ∉ old, σ id = id) ∧
    ∀ id ∈ old, d.node? (σ id) = none ∧ e.parent? (σ id) = (d.parent? id).map σ ∧ e.data? (σ id) = contents id

variable {d e : Document} {fs inner gs : List Frame} {g b : Grove} {p x y z : NodeId} {data : NodeData} {sx sy : String}
  {side : Side} {t : Toolkit} {markers : Area.CopyMarkers}

theorem Holds.of_link (h : d.Holds (some p) g) : ∀ l ∈ g.links p, d.parent? l.id = some l.parent ∧ d.data? l.id = some l.data := by
  induction g generalizing p with
  | bare => simp [links]
  | tree id data below rest ihb ihr =>
    rw [links, List.forall_mem_cons, List.forall_mem_append]
    exact ⟨⟨by simp [Document.parent?, h.1], by simp [Document.data?, h.1]⟩, ihb h.2.1, ihr h.2.2⟩

@[simp] theorem foot_clear (side : Side) (p : NodeId) (fs : List Frame) : foot p (fs.map side.clear) = foot p fs := by
  simp [foot, chain, Function.comp_def]

theorem linksBefore_clear_sublist (side : Side) (fs : List Frame) : (linksBefore p (fs.map side.clear)).Sublist (linksBefore p fs) := by
  induction fs with
  | nil => exact .slnil
  | cons f fs ih =>
    rw [List.map_cons, linksBefore, linksBefore, foot_clear]
    apply ih.append
    cases side
    · exact (List.nil_sublist _).cons_cons _
    · exact .refl _

theorem linksBehind_clear_sublist (side : Side) (fs : List Frame) : (linksBehind p (fs.map side.clear)).Sublist (linksBehind p fs) := by
  induction fs with
  | nil => exact .slnil
  | cons f fs ih =>
    rw [List.map_cons, linksBehind, linksBehind]
    refine List.Sublist.append ?_ ih
    cases side
    · exact .refl _
    · exact List.nil_sublist _

theorem links_clear_sublist (side : Side) (fs : List Frame) : ((plug (fs.map side.clear) g).links p).Sublist ((plug fs g).links p) := by
  rw [links_plug, links_plug, foot_clear]
  exact ((linksBefore_clear_sublist side fs).append (.refl _)).append (linksBehind_clear_sublist side fs)

/-- The links of trees with a text at a place that is cleared on one side: those of the text, with its
contents, and links that were there. -/
theorem links_marked (hz : z ∉ before fs ++ behind fs) {s s' : String} {l : Link}
    (hl : l ∈ (plug (fs.map side.clear) (.single z (.text s') .bare)).links p) :
    l = ⟨z, foot p fs, .text s'⟩ ∨ l.id ≠ z ∧ l ∈ (plug fs (.single z (.text s) .bare)).links p := by
  rw [links_plug, links_single, foot_clear] at hl
  rw [links_plug]
  simp only [links, List.mem_append, List.mem_singleton] at hl ⊢
  rcases hl with (hl | hl) | hl
  · have hin := (linksBefore_clear_sublist side fs).subset hl
    refine .inr ⟨fun heq ↦ hz ?_, .inl (.inl hin)⟩
    rw [List.mem_append, ← heq, ← linksBefore_id]
    exact .inl (List.mem_map_of_mem hin)
  · exact .inl hl
  · have hin := (linksBehind_clear_sublist side fs).subset hl
    refine .inr ⟨fun heq ↦ hz ?_, .inr hin⟩
    rw [List.mem_append, ← heq, ← linksBehind_id]
    exact .inr (List.mem_map_of_mem hin)

/-! ### The nodes of an area -/

section Marked

variable {b c : Grove} {inner gs outer : List Frame} {a : Grove} {pdata : NodeData} {x y : NodeId} {sx sy : String} {ms : List Grove}
  {all : List Area.CopyMarkers}

@[simp] theorem before_clear (fs : List Frame) : before (fs.map Side.before.clear) = (chain fs).reverse := by
  induction fs with
  | nil => rfl
  | cons f fs ih => simp [before, Side.clear, ih]

@[simp] theorem behind_clear (fs : List Frame) : behind (fs.map Side.after.clear) = [] := by
  induction fs with
  | nil => rfl
  | cons f fs ih => simp [behind, Side.clear, ih]

@[simp] theorem before_clear_after (fs : List Frame) : before (fs.map Side.after.clear) = before fs := by
  induction fs with
  | nil => rfl
  | cons f fs ih => simp [before, Side.clear, ih]

@[simp] theorem behind_clear_before (fs : List Frame) : behind (fs.map Side.before.clear) = behind fs := by
  induction fs with
  | nil => rfl
  | cons f fs ih => simp [behind, Side.clear, ih]

/-- The area of a fork when what is outside has been split off. -/
abbrev cutArea (t : Toolkit) (inner : List Frame) (x : NodeId) (b : Grove) (gs : List Frame) (y : NodeId) (markers : Area.CopyMarkers) : Grove :=
  Area.marked t (inner.map Side.before.clear) x b (gs.map Side.after.clear) y markers

variable (h : d.Stands (fork outer p pdata a (plug inner (.single x (.text sx) .bare)) b (plug gs (.single y (.text sy) .bare)) c))

include h

theorem Stands.nodup_area : (p :: (before inner ++ x :: (behind inner ++ (b.order ++ (before gs ++ y :: behind gs))))).Nodup := by
  have hnodup := h.nodup
  rw [List.nodup_iff_count_le_one] at hnodup ⊢
  intro id
  have hcount := hnodup id
  simp only [fork, order_plug, order_single, order_append, order_bare, List.count_append, List.count_cons, List.count_nil] at hcount ⊢
  omega

theorem Stands.holds_area : d.Holds (some p) (plug inner (.single x (.text sx) .bare) ++ b ++ plug gs (.single y (.text sy) .bare)) := by
  have hchildren := h.below
  simp only [holds_append] at hchildren ⊢
  tauto

theorem Stands.eq_inside {xs ys zs : List NodeId}
    (horder : (fork outer p pdata a (plug inner (.single x (.text sx) .bare)) b (plug gs (.single y (.text sy) .bare)) c).order =
      xs ++ x :: (ys ++ y :: zs)) : ys = behind inner ++ b.order ++ before gs := by
  have hnodup := h.nodup
  have hwhole : (before outer ++ p :: (a.order ++ before inner)) ++
      x :: ((behind inner ++ b.order ++ before gs) ++ y :: (behind gs ++ c.order ++ behind outer)) = xs ++ x :: (ys ++ y :: zs) := by
    rw [← horder]
    simp [fork, order_plug]
  rw [horder, ← hwhole] at hnodup
  obtain ⟨-, hinside⟩ := split_unique hwhole hnodup
  exact (split_unique hinside (List.nodup_append.1 hnodup).2.1.of_cons).1.symm

/-- The nodes of an area are those on the way to the opening marker and those from it to the closing one. -/
theorem Stands.between_eq (ys : List NodeId) : d.between x y ys = (chain inner).reverse ++ x :: (ys ++ [y]) := by
  obtain ⟨hx, hy⟩ := h.fork_ancestors
  obtain ⟨-, hapart⟩ := h.fork_apart
  have hinner : (chain inner).filter (fun id ↦ !(d.ancestors y).contains id) = chain inner := by
    rw [List.filter_eq_self]
    intro id hid
    have hout := hapart id (List.mem_cons_of_mem _ hid)
    rw [List.mem_cons, not_or] at hout
    rw [hy]
    simpa using hout.2
  have houter : (p :: chain outer).filter (fun id ↦ !(d.ancestors y).contains id) = [] := by
    rw [List.filter_eq_nil_iff]
    intro id hid
    rw [hy, Bool.not_eq_true', Bool.not_eq_false, List.contains_iff_mem]
    exact List.mem_append_right _ hid
  rw [between, hx, List.filter_append, hinner, houter, List.append_nil]

theorem Stands.order_cutArea (t : Toolkit) (markers : Area.CopyMarkers) :
    (cutArea t inner x b gs y markers).order = d.between x y (behind inner ++ b.order ++ before gs) := by
  rw [h.between_eq]
  simp [cutArea, Area.marked, order_plug]

/-- Every node of an area has the parent that it had and holds what it held, but for the markers. -/
theorem Stands.links_cutArea (t : Toolkit) (markers : Area.CopyMarkers) : ∀ l ∈ (cutArea t inner x b gs y markers).links p,
    d.parent? l.id = some l.parent ∧ d.rewritten t.delimiters x y markers l.id = some l.data := by
  have hnodup := h.nodup_area.of_cons
  have hnodup' : ((before inner ++ x :: (behind inner ++ (b.order ++ before gs))) ++ y :: behind gs).Nodup := by simpa using hnodup
  have hx := (List.nodup_middle.1 hnodup).notMem
  have hy := (List.nodup_middle.1 hnodup').notMem
  simp only [List.mem_append, List.mem_cons, not_or] at hx hy
  have hlinks := h.holds_area.of_link
  have hother : ∀ l ∈ (plug inner (.single x (.text sx) .bare) ++ b ++ plug gs (.single y (.text sy) .bare)).links p,
      l.id ≠ x → l.id ≠ y → d.parent? l.id = some l.parent ∧ d.rewritten t.delimiters x y markers l.id = some l.data := by
    intro l hl hnex hney
    rw [rewritten, if_neg hnex, if_neg hney]
    exact hlinks l hl
  simp only [links_append, List.mem_append] at hlinks hother
  intro l hl
  rw [cutArea, Area.marked, links_append, links_append, List.mem_append, List.mem_append] at hl
  rcases hl with (hl | hl) | hl
  · rcases links_marked (s := sx) (by simp [hx]) hl with rfl | ⟨hnex, hin⟩
    · refine ⟨(hlinks ⟨x, foot p inner, .text sx⟩ (.inl (.inl ?_))).1, by simp [rewritten]⟩
      simp [links_plug, links]
    · have hid := mem_order_of_link hin
      refine hother l (.inl (.inl hin)) hnex fun heq ↦ ?_
      rw [heq] at hid
      simp [order_plug] at hid
      tauto
  · have hid := mem_order_of_link hl
    exact hother l (.inl (.inr hl)) (fun heq ↦ by simp [← heq, hid] at hx) fun heq ↦ by simp [← heq, hid] at hy
  · rcases links_marked (s := sy) (by simp [hy]) hl with rfl | ⟨hney, hin⟩
    · refine ⟨(hlinks ⟨y, foot p gs, .text sy⟩ (.inr ?_)).1, by simp [rewritten, hy]⟩
      simp [links_plug, links]
    · have hid := mem_order_of_link hin
      refine hother l (.inr hin) (fun heq ↦ ?_) hney
      rw [heq] at hid
      simp [order_plug] at hid
      tauto

theorem Stands.nodup_cutArea (t : Toolkit) (markers : Area.CopyMarkers) : (p :: (cutArea t inner x b gs y markers).order).Nodup := by
  have hbefore : (before (inner.map Side.before.clear)).Sublist (before inner) := by
    simpa only [linksBefore_id] using (linksBefore_clear_sublist (p := p) .before inner).map Link.id
  have horder : (cutArea t inner x b gs y markers).order =
      before (inner.map Side.before.clear) ++ x :: (behind inner ++ (b.order ++ (before gs ++ [y]))) := by
    simp [cutArea, Area.marked, order_plug]
  refine List.Sublist.nodup ?_ h.nodup_area
  rw [horder]
  apply List.Sublist.cons_cons
  apply hbefore.append
  apply List.Sublist.cons_cons
  apply List.Sublist.append_left
  apply List.Sublist.append_left
  apply List.Sublist.append_left
  exact (List.nil_sublist _).cons_cons y

/-- What looks like the area, its markers written, is a copy of it. -/
theorem Stands.isCopy {t : Toolkit} {markers : Area.CopyMarkers} {m : Grove} (halike : (cutArea t inner x b gs y markers).Alike m)
    (hm : e.Holds (some p) m) (hfresh : Area.Fresh d m) : d.IsCopy e (d.rewritten t.delimiters x y markers)
      (d.between x y (behind inner ++ b.order ++ before gs)) m.order := by
  obtain ⟨hp, hnodup⟩ := List.nodup_cons.1 (h.nodup_cutArea t markers)
  obtain ⟨σ, hout, hlinks⟩ := halike.exists_renaming hnodup
  have hlinks : m.links p = ((cutArea t inner x b gs y markers).links p).map (Link.rename σ) := by
    have hsame := hlinks p p hp
    rwa [Function.update_eq_self_iff.2 (hout p hp).symm] at hsame
  rw [← h.order_cutArea t markers]
  refine ⟨σ, ?_, hout, fun id hid ↦ ?_⟩
  · rw [← links_id (p := p), hlinks, ← links_id (p := p), List.map_map, List.map_map]
    rfl
  · rw [← links_id (p := p), List.mem_map] at hid
    obtain ⟨l, hl, rfl⟩ := hid
    have hrenamed : l.rename σ ∈ m.links p := hlinks ▸ List.mem_map_of_mem hl
    obtain ⟨hparent, hdata⟩ := h.links_cutArea t markers l hl
    obtain ⟨hparent', hdata'⟩ := hm.of_link _ hrenamed
    refine ⟨hfresh _ (mem_order_of_link hrenamed), ?_, ?_⟩
    · rw [hparent]
      exact hparent'
    · rw [hdata]
      exact hdata'

theorem Stands.texts_cutArea (t : Toolkit) (markers : Area.CopyMarkers) :
    ((cutArea t inner x b gs y markers).lineages (pdata :: datas outer)).filterMap Lineage.text? =
      t.delimiters.marker markers.opening :: ((behind inner ++ b.order ++ before gs).filterMap d.text? ++
        [t.delimiters.marker markers.closing]) := by
  have hagrees : ∀ l ∈ linesBehind (pdata :: datas outer) inner ++ b.lineages (pdata :: datas outer) ++
      linesBefore (pdata :: datas outer) gs, d.Agrees l := by
    intro l hl
    apply h.agrees l
    simp only [List.mem_append] at hl
    simp only [fork, lineages_plug, lineages_single, lineages_append, List.append_nil, List.mem_append, List.mem_cons]
    tauto
  have hinner : (Side.before.lines (pdata :: datas outer) (inner.map Side.before.clear)).filterMap Lineage.text? = [] :=
    filterMap_lines_clear _ fun f hf _ ↦ Area.text?_frame (h.fork_left.proper_frames f (List.mem_append_left _ hf)) _ _
  have hgs : (Side.after.lines (pdata :: datas outer) (gs.map Side.after.clear)).filterMap Lineage.text? = [] :=
    filterMap_lines_clear _ fun f hf _ ↦ Area.text?_frame (h.fork_right.proper_frames f (List.mem_append_left _ hf)) _ _
  simp only [Side.lines] at hinner hgs
  have htexts := Area.filterMap_text hagrees
  rw [List.map_append, List.map_append, linesBehind_id, lineages_id, linesBefore_id] at htexts
  rw [htexts, cutArea, Area.marked]
  simp only [lineages_append, lineages_plug, List.filterMap_append, hinner, hgs, linesBehind_clear, linesBefore_clear,
    List.nil_append, List.append_nil]
  simp [Lineage.text?]

theorem Stands.order_cut : (plug (inner.map Side.before.clear) (.single x (.text sx) .bare) ++ b ++
    plug (gs.map Side.after.clear) (.single y (.text sy) .bare)).order = d.between x y (behind inner ++ b.order ++ before gs) := by
  rw [h.between_eq]
  simp [order_plug]

theorem Stands.data?_cut (he : e.Holds (some p) (plug (inner.map Side.before.clear) (.single x (.text sx) .bare) ++ b ++
    plug (gs.map Side.after.clear) (.single y (.text sy) .bare))) :
    ∀ id ∈ d.between x y (behind inner ++ b.order ++ before gs), e.data? id = d.data? id := by
  intro id hid
  rw [← h.order_cut, ← links_id (p := p), List.mem_map] at hid
  obtain ⟨l, hl, rfl⟩ := hid
  have hold : l ∈ (plug inner (.single x (.text sx) .bare) ++ b ++ plug gs (.single y (.text sy) .bare)).links p := by
    rw [links_append, links_append] at hl ⊢
    exact (((links_clear_sublist .before inner).append (.refl _)).append (links_clear_sublist .after gs)).subset hl
  rw [(he.of_link l hl).2, (h.holds_area.of_link l hold).2]

theorem Stands.isCopies {t : Toolkit} (halike : List.Forall₂ (fun markers m ↦ (cutArea t inner x b gs y markers).Alike m) all ms)
    (hms : e.Holds (some p) (join ms)) (hfresh : Area.Fresh d (join ms)) :
    List.Forall₂ (fun markers ids ↦ d.IsCopy e (d.rewritten t.delimiters x y markers)
      (d.between x y (behind inner ++ b.order ++ before gs)) ids) all (ms.map Grove.order) := by
  induction halike with
  | nil => exact .nil
  | cons hm _ ih =>
    rw [join, holds_append] at hms
    rw [Area.Fresh, join, order_append, List.forall_mem_append] at hfresh
    exact .cons (h.isCopy hm hms.1 hfresh.1) (ih hms.2 hfresh.2)

theorem Stands.texts_join {t : Toolkit} (halike : List.Forall₂ (fun markers m ↦ (cutArea t inner x b gs y markers).Alike m) all ms) :
    ((join ms).lineages (pdata :: datas outer)).filterMap Lineage.text? =
      all.flatMap fun markers ↦ t.delimiters.marker markers.opening ::
        ((behind inner ++ b.order ++ before gs).filterMap d.text? ++ [t.delimiters.marker markers.closing]) := by
  induction halike with
  | nil => rfl
  | cons hm _ ih =>
    rw [join, lineages_append, List.filterMap_append, hm.filterMap_text, h.texts_cutArea, ih, List.flatMap_cons]

end Marked

end Document

namespace Area

variable {r : RunState} {s : Selection} {t : Toolkit} {x y : NodeId} {all : List CopyMarkers}

def replicateBetween (s : Selection) (opening closing : NodeId) (all : List CopyMarkers) : Run (Option Continuation) := do
  let area ← isolate opening closing
  area.replicate s.toolkit all

/-- What copies of an area make of a document in which `xs` are the nodes before the opening marker,
`ys` those between the markers and `zs` those behind the closing one, and where the scan goes on. -/
structure Replicated (d e : Document) (t : Delimiters) (opening closing : NodeId) (all : List CopyMarkers) (xs ys zs : List NodeId)
    (next : Continuation) : Prop where
  wellFormed : e.WellFormed
  root : e.root = d.root
  texts : (e.descendants e.root).filterMap e.text? = xs.filterMap d.text? ++
    (all.flatMap (fun markers ↦ t.marker markers.opening :: (ys.filterMap d.text? ++ [t.marker markers.closing])) ++
      zs.filterMap d.text?)
  parts : ∃ front copies rear, e.descendants e.root = front ++ (copies.flatten ++ rear) ∧ Remains d e opening closing xs front ∧
    List.Forall₂ (fun markers ids ↦ d.IsCopy e (d.rewritten t opening closing markers) (d.between opening closing ys) ids) all copies ∧
    Remains d e opening closing zs rear ∧ next = .toward copies.flatten.head?
  attached : ∀ id, d.beside opening closing id = true → (e.isAttached id = true ↔ id ∈ xs ∨ id ∈ zs)
  originals : ∀ id ∈ d.between opening closing ys, e.isAttached id = false ∧ e.data? id = d.data? id
  resumes : ∃ first, next = .at first ∧ e.isAttached first = true

theorem head?_tops_join (ms : List Grove) : (join ms).tops.head? = (ms.map Grove.order).flatten.head? := by
  rw [← head?_order, order_join, List.flatMap_def]

/-- Copies of an area between two texts of the tree, the first before the second, are made, whatever
the area shares with what is outside. They take its place, each with the markers that it is to have,
and what stands before and behind the area stays. -/
theorem replicateBetween_on (h : r.document.WellFormed) (hs : s.toolkit? = some t) (hx : r.document.isText x = true)
    (hy : r.document.isText y = true) {xs ys zs : List NodeId}
    (hsplit : r.document.descendants r.document.root = xs ++ x :: (ys ++ y :: zs)) (hall : all ≠ []) :
    ∃ next r', (replicateBetween s x y all).on r = (.ok (some next), r') ∧
      Replicated r.document r'.document t.delimiters x y all xs ys zs next := by
  have hd := h.forest
  obtain ⟨g, hg, htops, horder⟩ := hd.exists_root
  rw [horder] at hsplit
  obtain ⟨outer, p, pdata, a, inner, xdata, b, gs, ydata, c, rfl, rfl, rfl⟩ := hg.exists_fork hsplit hx hy
  obtain ⟨sx, rfl⟩ := hg.fork_left.exists_text hx
  obtain ⟨sy, rfl⟩ := hg.fork_right.exists_text hy
  obtain rfl := hg.eq_inside hsplit
  have htop : summit outer p = r.document.root := by
    rw [tops_plug] at htops
    exact (List.cons.inj htops).1
  -- the area is isolated, and its copies are made
  obtain ⟨r₁, q, q', hisolate, hq, hq', hd₁, hg₁, h₁⟩ := isolate_fork hd hg htop
  obtain ⟨ms, r₂, hreplicate, hd₂, hg₂, h₂, halike, hfresh, hout⟩ := replicate_copies (t := t) hd₁ h₁ hall
  rw [summit_clear, summit_clear] at hreplicate
  have hgrows := hg₁.trans hg₂
  have hfresh : Fresh r.document (join ms) := fun id hid ↦ hg₁.unknown (hfresh id hid)
  have hbefore := remains_before hg h₂ hq
  have hbehind := remains_behind hg h₂ hq'
  have hroot := h₂.descendants_root (by rw [tops_plug, htop, hgrows.root])
  have hparts : r₂.document.descendants r₂.document.root = (before outer ++ p :: (a.order ++ q.order)) ++
      ((ms.map Grove.order).flatten ++ ((q' ++ c).order ++ behind outer)) := by
    rw [hroot, order_plug, ← List.flatMap_def, ← order_join]
    simp
  -- the originals are not where the copies are
  have hgone : ∀ id ∈ r.document.between x y (behind inner ++ b.order ++ before gs),
      r₂.document.isAttached id = false ∧ r₂.document.data? id = r.document.data? id := by
    intro id hid
    have hkept := hg.data?_cut h₁.holds_area id hid
    obtain ⟨hnotin, hdata⟩ := hout id (hg.order_cut ▸ hid)
    refine ⟨?_, hdata.trans hkept⟩
    rw [← Bool.not_eq_true, hd₂.isAttached_iff_mem, hroot]
    exact hnotin
  have hcopies := hg.isCopies halike (by have := h₂.below; simp only [holds_append] at this; tauto) hfresh
  have htexts := text_remains hg h₂ hq hq'
  rw [hg.texts_join halike, ← hroot] at htexts
  refine ⟨.toward (join ms).tops.head?, r₂, ?_, hd₂.wellFormed, hgrows.root, htexts, ?_, ?_, hgone, ?_⟩
  · rw [replicateBetween, Run.on_bind_ok hisolate, Selection.toolkit, hs]
    exact hreplicate
  · exact ⟨_, _, _, hparts, hbefore, hcopies, hbehind, by rw [head?_tops_join]⟩
  · intro id hid
    have hnotcopy : id ∉ (ms.map Grove.order).flatten := by
      rw [← List.flatMap_def, ← order_join]
      intro hin
      simp [Document.beside, hfresh id hin] at hid
    rw [hd₂.isAttached_iff_mem, hparts, ← hbefore.mem_iff hid, ← hbehind.mem_iff hid]
    simp only [List.mem_append]
    tauto
  · -- there is a copy, and it has a node
    have hne : (ms.map Grove.order).flatten ≠ [] := by
      obtain ⟨markers, all, rfl⟩ := List.exists_cons_of_ne_nil hall
      obtain ⟨ids, copies, ⟨σ, rfl, -⟩, -, heq⟩ := List.forall₂_cons_left_iff.1 hcopies
      rw [heq, hg.between_eq]
      simp
    obtain ⟨first, rest, hflat⟩ := List.exists_cons_of_ne_nil hne
    refine ⟨first, by rw [head?_tops_join, hflat]; rfl, ?_⟩
    rw [hd₂.isAttached_iff_mem, hparts, hflat]
    simp

theorem replicateBetween_twoParagraphs : ∃ (s : Selection) (r r' : RunState) (next : Continuation), r.document = twoParagraphs ∧
    (replicateBetween s ⟨0, 5⟩ ⟨0, 8⟩ [⟨[.bare "One"], [.bare "End"]⟩, ⟨[.bare "Two"], [.bare "End"]⟩]).on r = (.ok (some next), r') ∧
    (r'.document.descendants r'.document.root).filterMap r'.document.text? =
      ["a", "$\x7bOne\x7d", "b", "$\x7bEnd\x7d", "$\x7bTwo\x7d", "b", "$\x7bEnd\x7d", "z"] := by
  let s : Selection := ⟨⟨0, 5⟩, .bare "Loop", some (.ofDelimiters .default), .empty, ⟨⟨0, 1⟩, .midnight⟩⟩
  let r : RunState := ⟨twoParagraphs, .ofData .null, [], Services.ofTtl 0, .empty, 0, 1, []⟩
  have hsplit : r.document.descendants r.document.root =
      [⟨0, 0⟩, ⟨0, 1⟩, ⟨0, 2⟩, ⟨0, 3⟩, ⟨0, 4⟩] ++ ⟨0, 5⟩ :: ([⟨0, 6⟩, ⟨0, 7⟩] ++ ⟨0, 8⟩ :: [⟨0, 9⟩]) := by decide
  have hall : [(⟨[.bare "One"], [.bare "End"]⟩ : CopyMarkers), ⟨[.bare "Two"], [.bare "End"]⟩] ≠ [] := by simp
  obtain ⟨next, r', hon, hreplicated⟩ := replicateBetween_on (s := s) (r := r) wellFormed_twoParagraphs rfl rfl rfl hsplit hall
  refine ⟨s, r, r', next, rfl, hon, hreplicated.texts.trans ?_⟩
  decide +kernel

end Area

end Stencil
