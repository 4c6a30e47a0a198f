import Stencil.Proofs.Document.Nodes
import Stencil.Proofs.Grove.Basic
/-!
Groves that an arena holds. Around a place of a tree that stands in a document the arena is as the
frames of the place say, so the ways through a document follow the frames.
-/

namespace Stencil

open Grove

def NodeData.IsText (data : NodeData) : Prop := ∃ s, data = .text s

namespace Grove

def Proper : Grove → Prop
  | bare => True
  | tree _ data below rest => (data.IsText → below = bare) ∧ Proper below ∧ Proper rest

structure Frame.Proper (f : Frame) : Prop where
  element : ¬f.data.IsText
  left : f.left.Proper
  right : f.right.Proper

@[simp] theorem proper_append (f g : Grove) : (f ++ g).Proper ↔ f.Proper ∧ g.Proper := by
  induction f with
  | bare => simp [Proper]
  | tree id data below rest _ ih => rw [tree_append, Proper, ih, Proper, and_assoc, and_assoc]

theorem proper_single {id : NodeId} {data : NodeData} {below : Grove} :
    (single id data below).Proper ↔ (data.IsText → below = bare) ∧ below.Proper := by
  simp [single, Proper]

theorem proper_plug {fs : List Frame} {g : Grove} (hg : g.tops ≠ []) :
    (plug fs g).Proper ↔ (∀ f ∈ fs, f.Proper) ∧ g.Proper := by
  induction fs generalizing g with
  | nil => simp
  | cons f fs ih =>
    have hne : (f.left ++ g ++ f.right).tops ≠ [] := by simp [hg]
    have hnot : f.left ++ g ++ f.right ≠ bare := fun heq ↦ hne (by rw [heq, tops_bare])
    rw [plug_cons, ih (by simp), proper_single, proper_append, proper_append, List.forall_mem_cons]
    constructor
    · rintro ⟨hfs, helement, ⟨hleft, hg⟩, hright⟩
      exact ⟨⟨⟨fun ht ↦ hnot (helement ht), hleft, hright⟩, hfs⟩, hg⟩
    · rintro ⟨⟨hf, hfs⟩, hg⟩
      exact ⟨hfs, fun ht ↦ absurd ht hf.element, ⟨hf.left, hg⟩, hf.right⟩

end Grove

namespace Document

variable {d e : Document}

/-- The trees of a grove stand in the arena, below a parent or on their own. -/
def Holds (d : Document) : Option NodeId → Grove → Prop
  | _, .bare => True
  | parent?, .tree id data below rest =>
    d.node? id = some ⟨data, parent?, below.tops⟩ ∧ d.Holds (some id) below ∧ d.Holds parent? rest

/-- Around a place the arena is as the frames say; `tops` are topmost at the place. -/
def Around (d : Document) : List NodeId → List Frame → Prop
  | _, [] => True
  | tops, f :: fs =>
    d.node? f.id = some ⟨f.data, (chain fs).head?, f.left.tops ++ tops ++ f.right.tops⟩ ∧
      d.Holds (some f.id) f.left ∧ d.Holds (some f.id) f.right ∧ d.Around [f.id] fs

variable {p? : Option NodeId} {f g sub : Grove} {fs : List Frame} {id : NodeId} {data : NodeData}

@[simp] theorem holds_append : d.Holds p? (f ++ g) ↔ d.Holds p? f ∧ d.Holds p? g := by
  induction f with
  | bare => simp [Holds]
  | tree id data below rest _ ih => rw [tree_append, Holds, ih, Holds, and_assoc, and_assoc]

theorem holds_single : d.Holds p? (single id data sub) ↔
    d.node? id = some ⟨data, p?, sub.tops⟩ ∧ d.Holds (some id) sub := by
  simp [single, Holds]

theorem holds_plug : d.Holds none (plug fs g) ↔ d.Around g.tops fs ∧ d.Holds (chain fs).head? g := by
  induction fs generalizing g with
  | nil => simp [Around]
  | cons f fs ih =>
    rw [plug_cons, ih, holds_single, holds_append, holds_append, tops_single, tops_append, tops_append, Around,
      chain_cons, List.head?_cons]
    tauto

theorem Holds.congr (h : d.Holds p? g) (hframe : ∀ id ∈ g.order, e.node? id = d.node? id) :
    e.Holds p? g := by
  induction g generalizing p? with
  | bare => trivial
  | tree id data below rest ihb ihr =>
    rw [order, List.forall_mem_cons, List.forall_mem_append] at hframe
    obtain ⟨hid, hbelow, hrest⟩ := hframe
    exact ⟨hid.trans h.1, ihb h.2.1 hbelow, ihr h.2.2 hrest⟩

theorem Holds.known (h : d.Holds p? g) : ∀ id ∈ g.order, d.node? id ≠ none := by
  induction g generalizing p? with
  | bare => simp
  | tree id data below rest ihb ihr =>
    rw [order, List.forall_mem_cons, List.forall_mem_append]
    exact ⟨by simp [h.1], ihb h.2.1, ihr h.2.2⟩

theorem Holds.parent?_top (h : d.Holds p? g) : ∀ id ∈ g.tops, d.parent? id = p? := by
  induction g with
  | bare => simp
  | tree id data below rest _ ih =>
    rw [tops, List.forall_mem_cons]
    exact ⟨by simp [Document.parent?, h.1], ih h.2.2⟩

/-- In documents that hold the same trees the nodes of these are the same. -/
theorem Holds.node?_eq (h : d.Holds p? g) (h' : e.Holds p? g) : ∀ id ∈ g.order, e.node? id = d.node? id := by
  induction g generalizing p? with
  | bare => simp
  | tree id data below rest ihb ihr =>
    rw [order, List.forall_mem_cons, List.forall_mem_append]
    exact ⟨h'.1.trans h.1.symm, ihb h.2.1 h'.2.1, ihr h.2.2 h'.2.2⟩

/-- A grove is what the arena holds below its topmost nodes. -/
theorem Holds.unique (h : d.Holds p? g) : ∀ {g' : Grove}, d.Holds p? g' → g.tops = g'.tops → g = g' := by
  induction g generalizing p? with
  | bare => exact fun {g'} _ htops ↦ (eq_bare_of_tops htops.symm).symm
  | tree id data below rest ihb ihr =>
    rintro (_ | ⟨id', data', below', rest'⟩) h' htops
    · simp [tops] at htops
    · obtain ⟨rfl, hrest⟩ := List.cons.inj htops
      have hnode := Option.some.inj (h.1.symm.trans h'.1)
      obtain ⟨rfl, -, hbelow⟩ := Node.mk.inj hnode
      rw [ihb h.2.1 h'.2.1 hbelow, ihr h.2.2 h'.2.2 hrest]

/-- A node of a grove has its parent in it, or is topmost. -/
theorem Holds.parent?_mem (h : d.Holds p? g) : ∀ id ∈ g.order,
    (id ∈ g.tops ∧ d.parent? id = p?) ∨ ∃ p ∈ g.order, d.parent? id = some p ∧ id ∈ d.children p := by
  induction g generalizing p? with
  | bare => simp
  | tree top data below rest ihb ihr =>
    rw [order, List.forall_mem_cons, List.forall_mem_append]
    have hchildren : d.children top = below.tops := by simp [children, h.1]
    refine ⟨.inl ⟨List.mem_cons_self .., by simp [Document.parent?, h.1]⟩, fun id hid ↦ ?_, fun id hid ↦ ?_⟩
    · rcases ihb h.2.1 id hid with ⟨htop, hp⟩ | ⟨p, hin, hp, hc⟩
      · exact .inr ⟨top, List.mem_cons_self .., hp, hchildren ▸ htop⟩
      · exact .inr ⟨p, List.mem_cons_of_mem _ (List.mem_append_left _ hin), hp, hc⟩
    · rcases ihr h.2.2 id hid with ⟨htop, hp⟩ | ⟨p, hin, hp, hc⟩
      · exact .inl ⟨List.mem_cons_of_mem _ htop, hp⟩
      · exact .inr ⟨p, List.mem_cons_of_mem _ (List.mem_append_right _ hin), hp, hc⟩

/-- With a node a grove has its children. -/
theorem Holds.children_mem (h : d.Holds p? g) : ∀ p ∈ g.order, ∀ c ∈ d.children p, c ∈ g.order := by
  induction g generalizing p? with
  | bare => simp
  | tree top data below rest ihb ihr =>
    rw [order, List.forall_mem_cons, List.forall_mem_append]
    refine ⟨fun c hc ↦ ?_, fun p hp c hc ↦ ?_, fun p hp c hc ↦ ?_⟩
    · have hchildren : d.children top = below.tops := by simp [children, h.1]
      rw [hchildren] at hc
      exact List.mem_cons_of_mem _ (List.mem_append_left _ (below.tops_sublist.subset hc))
    · exact List.mem_cons_of_mem _ (List.mem_append_left _ (ihb h.2.1 p hp c hc))
    · exact List.mem_cons_of_mem _ (List.mem_append_right _ (ihr h.2.2 p hp c hc))

/-! ### Trees that stand on their own -/

structure Stands (d : Document) (g : Grove) : Prop where
  single : ∃ id data sub, g = .single id data sub
  holds : d.Holds none g
  nodup : g.order.Nodup
  proper : g.Proper

theorem Stands.congr (h : d.Stands g) (hframe : ∀ id ∈ g.order, e.node? id = d.node? id) : e.Stands g :=
  ⟨h.single, h.holds.congr hframe, h.nodup, h.proper⟩

theorem Stands.order_length (h : d.Stands g) : g.order.length ≤ d.size := length_le_of_known h.nodup h.holds.known

theorem Stands.exists_place (h : d.Stands g) (hid : id ∈ g.order) :
    ∃ below data fs, g = plug fs (.single id data below) := by
  obtain ⟨top, topData, below, rfl⟩ := h.single
  exact exists_place_single hid

section Places

variable (h : d.Stands (plug fs (.single id data sub)))

include h

theorem Stands.around : d.Around [id] fs := (holds_plug.1 h.holds).1

theorem Stands.node? : d.node? id = some ⟨data, (chain fs).head?, sub.tops⟩ :=
  (holds_single.1 (holds_plug.1 h.holds).2).1

theorem Stands.below : d.Holds (some id) sub := (holds_single.1 (holds_plug.1 h.holds).2).2

theorem Stands.parent? : d.parent? id = (chain fs).head? := by simp [Document.parent?, h.node?]

theorem Stands.children : d.children id = sub.tops := by simp [Document.children, h.node?]

theorem Stands.data? : d.data? id = some data := by simp [Document.data?, h.node?]

theorem Stands.nodup_parts : (before fs ++ id :: (sub.order ++ behind fs)).Nodup := by
  have := h.nodup
  rwa [order_plug, order_single, List.append_assoc, List.cons_append] at this

theorem Stands.notMem_chain : id ∉ chain fs := fun hin ↦
  (List.nodup_append.1 h.nodup_parts).2.2 _ (chain_subset_before fs _ hin) _ (List.mem_cons_self ..) rfl

theorem Stands.nodup_chain : (chain fs).Nodup := Grove.nodup_chain (List.nodup_append.1 h.nodup_parts).1

end Places

theorem climb_around {n : ℕ} : ∀ {fs : List Frame} {id : NodeId}, d.Around [id] fs → d.parent? id = (chain fs).head? →
    d.climb n id = (chain fs).take n := by
  induction n with
  | zero => intros; simp [climb]
  | succ n ih =>
    rintro (_ | ⟨f, fs⟩) id h hp
    · rw [climb, hp]
      rfl
    · rw [climb, hp, chain_cons, List.head?_cons, List.take_succ_cons]
      dsimp only
      rw [ih h.2.2.2 (by simp [parent?, h.1])]

/-- A place is less deep than the arena is large. -/
theorem Stands.length_frames (h : d.Stands (plug fs (.single id data sub))) : fs.length < d.size := by
  have hlength := h.order_length
  rw [order_plug, order_single] at hlength
  have hchain := (h.nodup_chain.subperm (chain_subset_before fs)).length_le
  simp only [chain, List.length_map, List.length_append, List.length_cons] at hchain hlength
  omega

theorem Stands.ancestors (h : d.Stands (plug fs (.single id data sub))) : d.ancestors id = chain fs := by
  have := h.length_frames
  rw [Document.ancestors, climb_around h.around h.parent?, List.take_of_length_le]
  simp only [chain, List.length_map]
  omega

theorem preorder_holds : ∀ {g : Grove} {p? : Option NodeId} {n : ℕ}, d.Holds p? g → g.order.length ≤ n →
    g.tops.flatMap (d.preorder n) = g.order := by
  intro g
  induction g with
  | bare => intros; rfl
  | tree id data below rest ihb ihr =>
    intro p? n h hn
    simp only [order, List.length_cons, List.length_append] at hn
    obtain ⟨n, rfl⟩ : ∃ k, n = k + 1 := ⟨n - 1, by omega⟩
    have hchildren : d.children id = below.tops := by simp [children, h.1]
    rw [tops, List.flatMap_cons, ihr h.2.2 (by omega), preorder, hchildren, ihb h.2.1 (by omega), order,
      List.cons_append]

theorem Stands.descendants (h : d.Stands (plug fs (.single id data sub))) :
    d.descendants id = id :: sub.order := by
  have hlength := h.order_length
  rw [order_plug, order_single] at hlength
  simp only [List.length_append, List.length_cons] at hlength
  have hall := preorder_holds (holds_plug.1 h.holds).2 (n := d.size) (by rw [order_single, List.length_cons]; omega)
  rwa [tops_single, List.flatMap_singleton, order_single] at hall

/-! ### Ways from a place -/

theorem Stands.contains_iff (h : d.Stands (plug fs (.single id data sub))) {a : NodeId} :
    d.contains a id = true ↔ id = a ∨ a ∈ chain fs := by
  simp [contains, h.ancestors]

/-- Among its siblings a node stands behind the trees on the left. -/
theorem Stands.siblings {f : Frame} (h : d.Stands (plug (f :: fs) (.single id data sub))) :
    d.parent? id = some f.id ∧ d.children f.id = f.left.tops ++ id :: f.right.tops ∧ id ∉ f.left.tops := by
  have hchildren : d.children f.id = f.left.tops ++ id :: f.right.tops := by
    simp [Document.children, h.around.1]
  refine ⟨h.parent?, hchildren, fun hin ↦ ?_⟩
  have hnodup := (List.nodup_append.1 h.nodup_parts).2.2
  refine hnodup id ?_ id (List.mem_cons_self ..) rfl
  rw [before]
  exact List.mem_append_right _ (List.mem_cons_of_mem _ (f.left.tops_sublist.subset hin))

theorem Stands.indexInParent? {f : Frame} (h : d.Stands (plug (f :: fs) (.single id data sub))) :
    d.indexInParent? id = some f.left.tops.length := by
  obtain ⟨hparent, hchildren, hleft⟩ := h.siblings
  rw [Document.indexInParent?, hparent, Option.bind_some, hchildren, findIdx?_append hleft]

theorem Stands.nextSibling? (h : d.Stands (plug fs (.single id data sub))) :
    d.nextSibling? id = fs.head?.bind fun f ↦ f.right.tops.head? := by
  cases fs with
  | nil =>
    rw [Document.nextSibling?, h.parent?]
    rfl
  | cons f fs =>
    obtain ⟨hparent, hchildren, hleft⟩ := h.siblings
    rw [Document.nextSibling?, hparent, Option.bind_some, hchildren, following?_append hleft]
    rfl

theorem head?_order : ∀ g : Grove, g.order.head? = g.tops.head?
  | .bare => rfl
  | .tree .. => rfl

/-- The node behind a node and all below it stands right of the way down. -/
theorem Stands.nextAfter? (h : d.Stands (plug fs (.single id data sub))) : d.nextAfter? id = (behind fs).head? := by
  rw [Document.nextAfter?, h.ancestors]
  induction fs generalizing id data sub with
  | nil =>
    rw [chain_nil, List.findSome?_cons, h.nextSibling?]
    rfl
  | cons f fs ih =>
    have hup : d.Stands (plug fs (.single f.id f.data (f.left ++ .single id data sub ++ f.right))) := h
    rw [List.findSome?_cons, h.nextSibling?, chain_cons, ih hup, behind, List.head?_append, head?_order,
      List.head?_cons, Option.bind_some]
    cases f.right.tops.head? <;> rfl

def summit (fs : List Frame) (id : NodeId) : NodeId := ((chain fs).getLast?).getD id

theorem tops_plug (fs : List Frame) : (plug fs (.single id data sub)).tops = [summit fs id] := by
  cases fs with
  | nil => rfl
  | cons f fs =>
    rw [tops_plug_cons, summit, List.getLast?_eq_getLast_of_ne_nil (l := chain (f :: fs)) (by simp), List.getLast_map]
    rfl

theorem summit_cons (f : Frame) (fs : List Frame) (id : NodeId) : summit (f :: fs) id = summit fs f.id := by
  rw [summit, chain_cons, List.getLast?_cons, Option.getD_some, summit]

theorem exists_summit (fs : List Frame) (id : NodeId) (data : NodeData) (below : Grove) :
    ∃ topData sub, plug fs (.single id data below) = .single (summit fs id) topData sub := by
  obtain ⟨top, topData, sub, heq⟩ := exists_single_plug fs id data below
  obtain rfl : summit fs id = top := by
    have htops := congrArg tops heq
    rw [tops_plug, tops_single] at htops
    exact (List.cons.inj htops).1
  exact ⟨topData, sub, heq⟩

theorem Stands.ancestorChild? {inner outer : List Frame} {f : Frame}
    (h : d.Stands (plug (inner ++ f :: outer) (.single id data sub))) :
    d.ancestorChild? f.id id = some (summit inner id) := by
  rw [Document.ancestorChild?, h.ancestors]
  induction inner generalizing id data sub with
  | nil =>
    rw [List.find?_cons, h.parent?]
    simp [summit]
  | cons i inner ih =>
    have hup : d.Stands (plug (inner ++ f :: outer) (.single i.id i.data (i.left ++ .single id data sub ++ i.right))) := h
    have hne : i.id ≠ f.id := by
      have hnodup := h.nodup_chain
      rw [List.cons_append, chain_cons, List.nodup_cons] at hnodup
      exact fun heq ↦ hnodup.1 (heq ▸ by simp)
    have hparent : (d.parent? id == some f.id) = false := by
      rw [h.parent?]
      simpa using hne
    rw [List.find?_cons, hparent, List.cons_append, chain_cons, summit_cons]
    exact ih hup

/-- Two trees that stand in a document and share a node are one. -/
theorem Stands.unique (h : d.Stands f) (h' : d.Stands g) (hf : id ∈ f.order) (hg : id ∈ g.order) : f = g := by
  obtain ⟨sub, data, fs, rfl⟩ := h.exists_place hf
  obtain ⟨sub', data', fs', rfl⟩ := h'.exists_place hg
  refine h.holds.unique h'.holds ?_
  rw [tops_plug, tops_plug, summit, summit, ← h.ancestors, h'.ancestors]

theorem Stands.isAttached_iff (hroot : d.parent? d.root = none) (h : d.Stands g) (hid : id ∈ g.order) :
    d.isAttached id = true ↔ g.tops = [d.root] := by
  obtain ⟨sub, data, fs, rfl⟩ := h.exists_place hid
  rw [isAttached, h.ancestors, tops_plug]
  cases fs with
  | nil => simp [summit]
  | cons f fs =>
    have hne : id ≠ d.root := by
      rintro rfl
      rw [h.parent?] at hroot
      simp at hroot
    rw [summit_cons, summit, chain_cons, List.getLast?_cons]
    simp [hne]

end Document

end Stencil
