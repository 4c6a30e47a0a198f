import Stencil.Document.Outline
import Stencil.Proofs.Edits.Reachable
import Stencil.Proofs.Grove.Partition
import Stencil.Proofs.Grove.Replication
import Stencil.Proofs.Run.Erasure
/-!
One order of all nodes of a tree. The ways forth and back, the way behind a node, the comparison of
two nodes and the node above both are each found in their own manner, from the links around a node;
all of them follow the list of the nodes of the tree in which each stands before what is below it.

Copies are exact and touch nothing else. What is in and below a copy reads as the original does, all
nodes made for it are in it, and the nodes there were stay as they were.
-/

namespace Stencil

open Grove

namespace Document

variable {d : Document} {f : Frame} {fs gs : List Frame} {g sub xsub ysub : Grove} {p? : Option NodeId}
  {a b c id x y : NodeId} {data xdata ydata : NodeData} {xs ys zs : List NodeId}

/-! ### What is said of the order -/

/-- The nodes taken off a stack one after another, at most `n` of them. The children of each are put
on the stack, the first one on top. -/
def unstack (d : Document) : ℕ → List NodeId → List NodeId
  | 0, _ => []
  | _ + 1, [] => []
  | n + 1, id :: stack => id :: unstack d n (d.children id ++ stack)

/-- The lowest of the nodes that have both of two nodes in and below them. -/
structure IsLowest (d : Document) (a b c : NodeId) : Prop where
  left : a ∈ d.descendants c
  right : b ∈ d.descendants c
  lowest : ∀ c', a ∈ d.descendants c' → b ∈ d.descendants c' → c ∈ d.descendants c'

/-- All ways through a document follow one list, that of the nodes of its tree. -/
structure Ordered (d : Document) : Prop where
  mem : ∀ id, id ∈ d.descendants d.root ↔ d.isAttached id = true
  nodup : (d.descendants d.root).Nodup
  unstack : ∀ n, d.unstack n [d.root] = (d.descendants d.root).take n
  forth : ∀ n, d.forth n d.root = (d.descendants d.root).take n
  inverse : ∀ a b, d.prevInOrder? b = some a ↔ d.nextInOrder? a = some b
  behind : ∀ id, d.isAttached id = true → ∃ front back,
    d.descendants d.root = front ++ d.descendants id ++ back ∧ d.nextAfter? id = back.head?
  compared : ∀ a b, d.isAttached a = true → d.isAttached b = true →
    d.compareOrder? a b = some (compare ((d.descendants d.root).idxOf a) ((d.descendants d.root).idxOf b))
  common : ∀ a b, d.node? a ≠ none → d.node? b ≠ none →
    (d.commonAncestor? a b = none ↔ d.topOf a ≠ d.topOf b) ∧
      ∀ c, d.commonAncestor? a b = some c → d.IsLowest a b c

/-! ### The way forth -/

theorem unstack_nil (n : ℕ) : d.unstack n [] = [] := by cases n <;> rfl

/-- Trees on top of a stack are taken off node by node, before what is below them on the stack. -/
theorem Holds.unstack (h : d.Holds p? g) (n : ℕ) (stack : List NodeId) :
    d.unstack n (g.tops ++ stack) = g.order.take n ++ d.unstack (n - g.order.length) stack := by
  induction g generalizing p? n stack with
  | bare => simp
  | tree id data below rest ihb ihr =>
    cases n with
    | zero => simp [Document.unstack]
    | succ n =>
      have hchildren : d.children id = below.tops := by simp [children, h.1]
      rw [tops, List.cons_append, Document.unstack, hchildren, ihb h.2.1, ihr h.2.2, order, List.take_succ_cons,
        List.take_append, List.length_cons, List.length_append, Nat.add_sub_add_right, Nat.sub_add_eq]
      simp only [List.cons_append, List.append_assoc]

theorem Stands.forth (h : d.Stands g) : ∀ (n : ℕ) {xs : List NodeId} {x : NodeId} {zs : List NodeId},
    g.order = xs ++ x :: zs → d.forth n x = (x :: zs).take n
  | 0, _, _, _, _ => by simp [Document.forth]
  | n + 1, xs, x, zs, horder => by
    rw [Document.forth, h.nextInOrder?_eq horder]
    cases zs with
    | nil => simp
    | cons y zs =>
      have hsplit : g.order = (xs ++ [x]) ++ y :: zs := by rw [horder]; simp
      have hrest := h.forth n hsplit
      rw [List.head?_cons, List.take_succ_cons]
      dsimp only
      rw [hrest]

/-! ### The way back -/

theorem preceding?_append {front back : List NodeId} (h : id ∉ front) : preceding? id (front ++ id :: back) = front.getLast? := by
  induction front with
  | nil => cases back <;> simp [preceding?]
  | cons b front ih =>
    rw [List.mem_cons, not_or] at h
    have hb : b ≠ id := fun heq ↦ h.1 heq.symm
    cases front with
    | nil => simp [preceding?, hb]
    | cons c cs =>
      have hc : c ≠ id := fun heq ↦ h.2 (heq ▸ List.mem_cons_self ..)
      rw [List.cons_append, List.cons_append, preceding?, if_neg hb, if_neg hc, List.getLast?_cons_cons]
      exact ih h.2

theorem Stands.prevSibling? (h : d.Stands (plug (f :: fs) (.single id data sub))) : d.prevSibling? id = f.left.tops.getLast? := by
  obtain ⟨hparent, hchildren, hleft⟩ := h.siblings
  rw [Document.prevSibling?, hparent, Option.bind_some, hchildren, preceding?_append hleft]

/-- Last children lead from the last tree of a grove to its last node. -/
theorem Holds.deepestLast {n : ℕ} {s : NodeId} (h : d.Holds p? g) (hn : g.order.length ≤ n) (hs : g.tops.getLast? = some s) :
    g.order.getLast? = some (d.deepestLast n s) := by
  induction g generalizing p? n s with
  | bare => simp at hs
  | tree id data below rest ihb ihr =>
    simp only [order, List.length_cons, List.length_append] at hn
    cases rest with
    | tree id' data' below' rest' =>
      -- the last tree is among the others
      have hrest := ihr h.2.2 (n := n) (by omega) (by rwa [tops, tops, List.getLast?_cons_cons, ← tops] at hs)
      rw [order, List.getLast?_cons, List.getLast?_append, hrest]
      rfl
    | bare =>
      obtain rfl : id = s := by simpa [tops] using hs
      obtain ⟨n, rfl⟩ : ∃ k, n = k + 1 := ⟨n - 1, by omega⟩
      have hchildren : d.children id = below.tops := by simp [children, h.1]
      rw [order, order_bare, List.append_nil, List.getLast?_cons, Document.deepestLast, lastChild?, hchildren]
      cases hlast : below.tops.getLast? with
      | none =>
        rw [eq_bare_of_tops (List.getLast?_eq_none_iff.1 hlast)]
        rfl
      | some c =>
        rw [ihb h.2.1 (n := n) (by omega) hlast]
        rfl

theorem Stands.prevInOrder?_eq (h : d.Stands g) (horder : g.order = xs ++ x :: zs) : d.prevInOrder? x = xs.getLast? := by
  obtain ⟨sub, data, fs, rfl, rfl, -⟩ := h.exists_place_of_order horder
  cases fs with
  | nil =>
    rw [prevInOrder?, Document.prevSibling?, h.parent?]
    rfl
  | cons f fs =>
    have hleft : d.Holds (some f.id) f.left := h.around.2.1
    rw [prevInOrder?, h.prevSibling?, before, List.getLast?_append, List.getLast?_cons]
    cases hlast : f.left.tops.getLast? with
    | none =>
      rw [eq_bare_of_tops (List.getLast?_eq_none_iff.1 hlast)]
      exact h.parent?
    | some s =>
      have hsize : f.left.order.length ≤ d.size := by
        have hlength := h.order_length
        rw [order_plug, before] at hlength
        simp only [List.length_append, List.length_cons] at hlength
        omega
      rw [hleft.deepestLast hsize hlast]
      rfl

/-- A step back undoes a step forth, whatever the handles. -/
theorem Forest.prevInOrder?_iff (hd : d.Forest) : d.prevInOrder? b = some a ↔ d.nextInOrder? a = some b := by
  constructor
  · intro hprev
    have hb : d.node? b ≠ none := fun hnone ↦ by
      simp [prevInOrder?, prevSibling?, parent?_unknown hnone] at hprev
    obtain ⟨g, hg, hin⟩ := hd.all b hb
    obtain ⟨xs, zs, horder⟩ := List.append_of_mem hin
    rw [hg.prevInOrder?_eq horder] at hprev
    obtain ⟨xs, rfl⟩ := List.getLast?_eq_some_iff.1 hprev
    rw [hg.nextInOrder?_eq (show g.order = xs ++ a :: (b :: zs) by rw [horder]; simp)]
    rfl
  · intro hnext
    have ha : d.node? a ≠ none := fun hnone ↦ by
      simp [nextInOrder?, firstChild?, children, hnone, nextAfter?_unknown hnone] at hnext
    obtain ⟨g, hg, hin⟩ := hd.all a ha
    obtain ⟨xs, zs, horder⟩ := List.append_of_mem hin
    rw [hg.nextInOrder?_eq horder] at hnext
    obtain ⟨zs, rfl⟩ := List.head?_eq_some_iff.1 hnext
    rw [hg.prevInOrder?_eq (show g.order = (xs ++ [a]) ++ b :: zs by rw [horder]; simp)]
    simp

/-! ### Routes -/

theorem steps_append_cons (inner : List Frame) (f : Frame) (outer : List Frame) :
    steps (inner ++ f :: outer) = steps outer ++ f.left.tops.length :: steps inner := by
  simp [steps]

theorem compareRoutes_append (r is js : List ℕ) : compareRoutes (r ++ is) (r ++ js) = compareRoutes is js := by
  induction r with
  | nil => rfl
  | cons i r ih => rw [List.cons_append, List.cons_append, compareRoutes, ih]; simp

theorem compareRoutes_swap : ∀ is js : List ℕ, compareRoutes js is = (compareRoutes is js).swap
  | [], [] => rfl
  | [], _ :: _ => rfl
  | _ :: _, [] => rfl
  | i :: is, j :: js => by rw [compareRoutes, compareRoutes, compareRoutes_swap is js, Ordering.swap_then, Nat.compare_swap]

theorem Stands.route? (hroot : d.parent? d.root = none) : ∀ {fs : List Frame} {x : NodeId} {xdata : NodeData} {sub : Grove} {n : ℕ}
    (below : List ℕ), d.Stands (plug fs (.single x xdata sub)) → summit fs x = d.root → fs.length < n →
      d.route? n x below = some (steps fs ++ below)
  | [], x, _, _, n + 1, below, _, htop, _ => by
    rw [Document.route?, if_pos (show x = d.root from htop)]
    rfl
  | f :: fs, x, _, _, n + 1, below, h, htop, hn => by
    have hup : d.Stands (plug fs (.single f.id f.data (f.left ++ .single x _ _ ++ f.right))) := h
    have hne : x ≠ d.root := fun heq ↦ by
      rw [← heq, h.parent?] at hroot
      simp at hroot
    have hrest := hup.route? hroot (n := n) (f.left.tops.length :: below) (summit_cons f fs x ▸ htop) (by simpa using hn)
    rw [Document.route?, if_neg hne, h.indexInParent?, h.parent?, steps_cons]
    simpa using hrest

/-- The route to a node comes before those to all nodes behind it. -/
theorem Stands.compareRoutes_lt (h : d.Stands (plug fs (.single x xdata xsub))) (hy : y ∈ xsub.order ++ Grove.behind fs) :
    ∃ gs ydata ysub, plug fs (.single x xdata xsub) = plug gs (.single y ydata ysub) ∧
      compareRoutes (steps fs) (steps gs) = .lt := by
  rcases List.mem_append.1 hy with hy | hy
  · -- below the node
    obtain ⟨l, r, ysub, ydata, gs, rfl⟩ := Grove.exists_place hy
    refine ⟨gs ++ ⟨x, xdata, l, r⟩ :: fs, ydata, ysub, by rw [plug_append]; rfl, ?_⟩
    rw [steps_append_cons, ← List.append_nil (steps fs), List.append_assoc, compareRoutes_append]
    rfl
  · -- right of the way down to it
    obtain ⟨inner, outer, f, rfl, hin⟩ := exists_of_mem_behind hy
    obtain ⟨l, r, ysub, ydata, gs, hright⟩ := Grove.exists_place hin
    refine ⟨gs ++ ⟨f.id, f.data, f.left ++ plug inner (.single x xdata xsub) ++ l, r⟩ :: outer, ydata, ysub, ?_, ?_⟩
    · rw [plug_append, plug_append, plug_cons, plug_cons, hright]
      simp only [append_assoc]
    have hlt : f.left.tops.length < (f.left ++ plug inner (.single x xdata xsub) ++ l).tops.length := by
      rw [tops_append, tops_append, tops_plug, List.length_append, List.length_append, List.length_singleton]
      omega
    rw [steps_append_cons, steps_append_cons, compareRoutes_append, compareRoutes, Nat.compare_eq_lt.2 hlt]
    rfl

theorem idxOf_lt_idxOf {ids : List NodeId} (hnodup : ids.Nodup) (h : ids = xs ++ x :: (ys ++ y :: zs)) :
    ids.idxOf x < ids.idxOf y := by
  subst h
  obtain ⟨-, hrest, hapart⟩ := List.nodup_append.1 hnodup
  have hx : x ∉ xs := fun hin ↦ hapart x hin x (List.mem_cons_self ..) rfl
  have hy : y ∉ xs := fun hin ↦ hapart y hin y (by simp) rfl
  have hne : x ≠ y := fun heq ↦ (List.nodup_cons.1 hrest).1 (heq ▸ by simp)
  rw [List.idxOf_append_of_notMem hx, List.idxOf_append_of_notMem hy, List.idxOf_cons_self, List.idxOf_cons_ne _ hne]
  omega

/-- Of two nodes of the tree the one that comes first is the lesser one. -/
theorem Stands.compareOrder?_of_order (hroot : d.parent? d.root = none) (h : d.Stands g) (htop : g.tops = [d.root])
    (horder : g.order = xs ++ x :: (ys ++ y :: zs)) :
    d.compareOrder? x y = some (compare (g.order.idxOf x) (g.order.idxOf y)) ∧
      d.compareOrder? y x = some (compare (g.order.idxOf y) (g.order.idxOf x)) := by
  have hlt := idxOf_lt_idxOf h.nodup horder
  have hne : x ≠ y := fun heq ↦ hlt.ne (heq ▸ rfl)
  obtain ⟨xsub, xdata, fs, rfl, -, hbehind⟩ := h.exists_place_of_order horder
  obtain ⟨gs, ydata, ysub, heq, hroutes⟩ := h.compareRoutes_lt (show y ∈ xsub.order ++ Grove.behind fs by rw [← hbehind]; simp)
  have hplace : d.Stands (plug gs (.single y ydata ysub)) := heq ▸ h
  have hsummit : summit fs x = d.root ∧ summit gs y = d.root :=
    ⟨(List.cons.inj ((tops_plug fs).symm.trans htop)).1, (List.cons.inj ((tops_plug gs).symm.trans (heq ▸ htop))).1⟩
  have hrx := h.route? hroot [] hsummit.1 (n := d.size + 1) (by have := h.length_frames; omega)
  have hry := hplace.route? hroot [] hsummit.2 (n := d.size + 1) (by have := hplace.length_frames; omega)
  rw [List.append_nil] at hrx hry
  have hswap : compareRoutes (steps gs) (steps fs) = .gt := by rw [compareRoutes_swap, hroutes]; rfl
  rw [compareOrder?, compareOrder?, if_neg hne, if_neg hne.symm, hrx, hry, Nat.compare_eq_lt.2 hlt, Nat.compare_eq_gt.2 hlt]
  exact ⟨congrArg some hroutes, congrArg some hswap⟩

theorem Forest.compareOrder?_eq (hd : d.Forest) (ha : d.isAttached a = true) (hb : d.isAttached b = true) :
    d.compareOrder? a b = some (compare ((d.descendants d.root).idxOf a) ((d.descendants d.root).idxOf b)) := by
  obtain ⟨g, hg, htop, horder⟩ := hd.exists_root
  have hroot := hd.wellFormed.topmost
  rw [hd.isAttached_iff_mem, horder] at ha hb
  rw [horder]
  obtain ⟨xs, zs, hsplit⟩ := List.append_of_mem ha
  rw [hsplit, List.mem_append, List.mem_cons] at hb
  rcases hb with hb | rfl | hb
  · obtain ⟨xs, ys, rfl⟩ := List.append_of_mem hb
    have hreversed : g.order = xs ++ b :: (ys ++ a :: zs) := by rw [hsplit]; simp
    exact (hg.compareOrder?_of_order hroot htop hreversed).2
  · simp [compareOrder?]
  · obtain ⟨ys, zs, rfl⟩ := List.append_of_mem hb
    exact (hg.compareOrder?_of_order hroot htop hsplit).1

/-! ### The node above both -/

/-- What stands above a node on the way up from another is what stands above it. -/
theorem Stands.ancestors_of_split (h : d.Stands (plug fs (.single x xdata xsub))) (hsplit : x :: d.ancestors x = xs ++ c :: ys) :
    d.ancestors c = ys := by
  rw [h.ancestors] at hsplit
  cases xs with
  | nil =>
    obtain ⟨rfl, rfl⟩ := List.cons.inj hsplit
    exact h.ancestors
  | cons x' xs =>
    obtain ⟨inner, rest, rfl, -, hrest⟩ := List.map_eq_append_iff.1 (List.cons.inj hsplit).2
    obtain ⟨f, outer, rfl, rfl, rfl⟩ := List.map_eq_cons_iff.1 hrest
    rw [plug_append, plug_cons] at h
    exact h.ancestors

/-- A node is below what is above it, and below nothing else. -/
theorem Forest.mem_descendants_iff (hd : d.Forest) (hx : d.node? x ≠ none) : x ∈ d.descendants a ↔ a ∈ x :: d.ancestors x := by
  refine ⟨fun hin ↦ ?_, hd.mem_descendants hx⟩
  by_cases ha : d.node? a = none
  · -- nothing is below an unknown handle but itself
    have hchildren : d.children a = [] := by simp [children, ha]
    have hself : d.descendants a = [a] := by
      rw [descendants]
      cases d.size <;> simp [preorder, hchildren]
    rw [hself, List.mem_singleton] at hin
    exact hin ▸ List.mem_cons_self ..
  · obtain ⟨sub, data, fs, hplace⟩ := hd.exists_place ha
    rw [hplace.descendants, ← order_single sub a data] at hin
    obtain ⟨below, xdata, gs, heq⟩ := exists_place_single hin
    rw [heq, ← plug_append] at hplace
    have htops : summit gs x = a := by
      have htops := congrArg tops heq
      rw [tops_plug, tops_single] at htops
      exact (List.cons.inj htops).1.symm
    rw [hplace.ancestors, chain, List.map_append, ← List.cons_append]
    refine List.mem_append_left _ ?_
    rw [← htops, summit]
    exact List.mem_of_getLast? List.getLast?_cons

theorem Forest.topOf_eq (hd : d.Forest) (hx : d.node? x ≠ none) (ha : a ∈ x :: d.ancestors x) : d.topOf a = d.topOf x := by
  obtain ⟨sub, data, fs, hplace⟩ := hd.exists_place hx
  rw [hplace.ancestors] at ha
  exact (List.cons.inj ((hplace.topOf (chain_subset_order ha)).symm.trans (hplace.topOf (chain_subset_order (List.mem_cons_self ..))))).1

theorem topOf_mem (d : Document) (x : NodeId) : d.topOf x ∈ x :: d.ancestors x := List.mem_of_getLast? List.getLast?_cons

/-- There is a node above both of two nodes just when they are in one tree, and the one that is found
is the lowest. -/
theorem Forest.commonAncestor? (hd : d.Forest) (ha : d.node? a ≠ none) (hb : d.node? b ≠ none) :
    (d.commonAncestor? a b = none ↔ d.topOf a ≠ d.topOf b) ∧ ∀ c, d.commonAncestor? a b = some c → d.IsLowest a b c := by
  constructor
  · rw [Document.commonAncestor?, List.find?_eq_none]
    constructor
    · intro hnone htop
      exact hnone _ (topOf_mem d b) (List.contains_iff_mem.2 (htop ▸ topOf_mem d a))
    · intro hne c hc hin
      exact hne ((hd.topOf_eq ha (List.contains_iff_mem.1 hin)).symm.trans (hd.topOf_eq hb hc))
  · intro c hc
    rw [Document.commonAncestor?, List.find?_eq_some_iff_append] at hc
    obtain ⟨hca, xs, ys, hsplit, hxs⟩ := hc
    have hcb : c ∈ b :: d.ancestors b := hsplit ▸ by simp
    refine ⟨hd.mem_descendants ha (List.contains_iff_mem.1 hca), hd.mem_descendants hb hcb, fun c' ha' hb' ↦ ?_⟩
    rw [hd.mem_descendants_iff ha] at ha'
    rw [hd.mem_descendants_iff hb, hsplit, List.mem_append] at hb'
    obtain ⟨sub, data, fs, hplace⟩ := hd.exists_place hb
    rw [hd.mem_descendants_iff (hd.known_ancestors hb c hcb), hplace.ancestors_of_split hsplit]
    rcases hb' with hb' | hb'
    · -- what is found is the first one
      have hnot := hxs c' hb'
      rw [List.contains_iff_mem.2 ha'] at hnot
      contradiction
    · exact hb'

/-- All ways through a well-formed document follow one order. -/
theorem ordered_of_wellFormed (h : d.WellFormed) : d.Ordered := by
  have hd := h.forest
  obtain ⟨g, hg, htop, horder⟩ := hd.exists_root
  obtain ⟨top, data, sub, rfl⟩ := hg.single
  obtain rfl : top = d.root := (List.cons.inj htop).1
  refine ⟨fun id ↦ hd.isAttached_iff_mem.symm, horder ▸ hg.nodup, fun n ↦ ?_, fun n ↦ ?_, fun a b ↦ hd.prevInOrder?_iff,
    fun id hid ↦ ?_, fun a b ↦ hd.compareOrder?_eq, fun a b ↦ hd.commonAncestor?⟩
  · have htaken := hg.holds.unstack n []
    rwa [unstack_nil, List.append_nil, List.append_nil, ← horder] at htaken
  · have hsplit : (Grove.single d.root data sub).order = [] ++ d.root :: sub.order := order_single ..
    rw [horder, order_single]
    exact hg.forth n hsplit
  · rw [hd.isAttached_iff_mem, horder] at hid
    obtain ⟨below, xdata, fs, heq⟩ := hg.exists_place hid
    have hplace : d.Stands (plug fs (.single id xdata below)) := heq ▸ hg
    refine ⟨before fs, Grove.behind fs, ?_, hplace.nextAfter?⟩
    rw [horder, heq, order_plug, order_single, hplace.descendants]

/-- A root with a paragraph and a text, beside a paragraph that has been taken out. -/
def loosePart : Document :=
  ⟨0, #[⟨.element "doc" [], none, [⟨0, 1⟩, ⟨0, 4⟩]⟩, ⟨.element "p" [], some ⟨0, 0⟩, [⟨0, 2⟩]⟩,
    ⟨.element "em" [("size", "2"), ("at", "1")], some ⟨0, 1⟩, [⟨0, 3⟩]⟩, ⟨.text "a", some ⟨0, 2⟩, []⟩,
    ⟨.text "b", some ⟨0, 0⟩, []⟩,
    ⟨.element "p" [], none, [⟨0, 6⟩]⟩, ⟨.text "c", some ⟨0, 5⟩, []⟩]⟩

theorem wellFormed_loosePart : loosePart.WellFormed := by
  let tree : Grove := .single ⟨0, 0⟩ (.element "doc" []) (.tree ⟨0, 1⟩ (.element "p" [])
    (.single ⟨0, 2⟩ (.element "em" [("size", "2"), ("at", "1")]) (.single ⟨0, 3⟩ (.text "a") .bare)) (.single ⟨0, 4⟩ (.text "b") .bare))
  let part : Grove := .single ⟨0, 5⟩ (.element "p" []) (.single ⟨0, 6⟩ (.text "c") .bare)
  have htree : loosePart.Stands tree := by
    refine ⟨⟨_, _, _, rfl⟩, ?_, by decide, ?_⟩
    · simp [tree, loosePart, Holds, Grove.single, tops, Document.node?]
    · simp [tree, Grove.single, Grove.Proper, NodeData.IsText]
  have hpart : loosePart.Stands part := by
    refine ⟨⟨_, _, _, rfl⟩, ?_, by decide, ?_⟩
    · simp [part, loosePart, Holds, Grove.single, tops, Document.node?]
    · simp [part, Grove.single, Grove.Proper, NodeData.IsText]
  apply Forest.wellFormed
  refine ⟨⟨tree, htree, rfl⟩, fun id hid ↦ ?_⟩
  obtain ⟨n, hn⟩ := Option.ne_none_iff_exists'.1 hid
  have hall : ∀ i < loosePart.size, loosePart.handle i ∈ tree.order ∨ loosePart.handle i ∈ part.order := by decide
  have hhandle : id = loosePart.handle id.index := NodeId.ext (document_eq hn) rfl
  rcases hall id.index (index_lt_size hn) with hin | hin
  · exact ⟨tree, htree, hhandle ▸ hin⟩
  · exact ⟨part, hpart, hhandle ▸ hin⟩

/-- The way forth ends at the last node of the tree, and leads to no node of the paragraph that is out. -/
theorem ordered_loosePart : loosePart.WellFormed ∧ loosePart.forth 9 loosePart.root = (List.range 5).map loosePart.handle ∧
    loosePart.nextInOrder? ⟨0, 3⟩ = some ⟨0, 4⟩ ∧ loosePart.compareOrder? ⟨0, 4⟩ ⟨0, 3⟩ = some .gt ∧
    loosePart.IsLowest ⟨0, 3⟩ ⟨0, 4⟩ ⟨0, 0⟩ ∧ loosePart.commonAncestor? ⟨0, 3⟩ ⟨0, 6⟩ = none := by
  have h := ordered_of_wellFormed wellFormed_loosePart
  have hroot := (h.common ⟨0, 3⟩ ⟨0, 4⟩ (by decide) (by decide)).2 ⟨0, 0⟩ (by decide)
  exact ⟨wellFormed_loosePart, (h.forth 9).trans (by decide), (h.inverse _ _).1 (by decide),
    (h.compared _ _ (by decide) (by decide)).trans (by decide), hroot, (h.common _ _ (by decide) (by decide)).1.2 (by decide)⟩

end Document

end Stencil

/-! ### Copies -/

namespace Stencil

open Grove

namespace Grove

def outlines : Grove → List Outline
  | bare => []
  | tree _ (.text s) _ rest => .text s :: outlines rest
  | tree _ (.element tag attrs) below rest => .element tag attrs (outlines below) :: outlines rest

theorem Alike.outlines_eq {g g' : Grove} (h : g.Alike g') : g'.outlines = g.outlines := by
  induction h with
  | bare => rfl
  | @tree _ _ data _ _ _ _ _ _ ihb ihr => cases data <;> simp only [outlines, ihb, ihr]

end Grove

namespace Document

variable {source d e : Document} {fs : List Frame} {g sub sub' : Grove} {p? : Option NodeId} {id copy : NodeId} {data : NodeData}

/-- What a copy of a node of `source`, put among the nodes of `d`, makes of `d`. -/
structure Duplicates (source d e : Document) (id copy : NodeId) : Prop where
  wellFormed : e.WellFormed
  serial : e.serial = d.serial
  detached : e.parent? copy = none ∧ e.isAttached copy = false
  same : e.outline copy = source.outline id
  new : ∀ x, x ∈ e.descendants copy ↔ e.node? x ≠ none ∧ d.node? x = none
  kept : ∀ x, d.node? x ≠ none → e.node? x = d.node? x

/-! ### Trees as values -/

theorem outlineFrom_text {s : String} (h : d.data? id = some (.text s)) (n : ℕ) : d.outlineFrom n id = .text s := by
  rw [outlineFrom.eq_def]
  simp only [h]

theorem outlineFrom_element {tag : String} {attrs : Entries String} (h : d.data? id = some (.element tag attrs)) (n : ℕ) :
    d.outlineFrom (n + 1) id = .element tag attrs ((d.children id).map (d.outlineFrom n)) := by
  rw [outlineFrom.eq_def]
  simp only [h]

theorem Holds.outlines (h : d.Holds p? g) {n : ℕ} (hn : g.order.length ≤ n) : g.tops.map (d.outlineFrom n) = g.outlines := by
  induction g generalizing p? n with
  | bare => rfl
  | tree id data below rest ihb ihr =>
    simp only [order, List.length_cons, List.length_append] at hn
    obtain ⟨n, rfl⟩ : ∃ k, n = k + 1 := ⟨n - 1, by omega⟩
    have hdata : d.data? id = some data := by simp [data?, h.1]
    have hchildren : d.children id = below.tops := by simp [children, h.1]
    rw [tops, List.map_cons, ihr h.2.2 (by omega)]
    cases data with
    | text s => rw [outlineFrom_text hdata, Grove.outlines]
    | element tag attrs => rw [outlineFrom_element hdata, hchildren, ihb h.2.1 (by omega), Grove.outlines]

theorem Stands.outline (h : d.Stands (plug fs (.single id data sub))) : [d.outline id] = (Grove.single id data sub).outlines := by
  have hlength := h.order_length
  rw [order_plug] at hlength
  simp only [List.length_append] at hlength
  exact (holds_plug.1 h.holds).2.outlines (n := d.size) (by omega)

/-! ### Copies -/

theorem Stands.duplicates (hd : d.Forest) (h : source.Stands (plug fs (.single id data sub))) {n : ℕ} (hn : source.size < n) :
    ∃ copy e, Document.copyFrom source n d id = .ok (copy, e) ∧ Duplicates source d e id copy := by
  obtain ⟨sub', e, hcopy, hc⟩ := h.exists_copies hn hd
  have hstands : e.Stands (plug [] (.single d.fresh data sub')) := hc.stands
  have hgrows := (Grows.create d data).trans hc.grows
  have hroot : d.fresh ≠ e.root := fun heq ↦ by
    rw [hgrows.root] at heq
    exact hd.wellFormed.rooted (heq ▸ node?_fresh d)
  have hold : ∀ x, d.node? x ≠ none → (d.create data).2.node? x = d.node? x := fun x hx ↦ by
    rw [node?_create, if_neg fun heq : x = d.fresh ↦ hx (heq ▸ node?_fresh d)]
  refine ⟨d.fresh, e, hcopy, hc.forest.wellFormed, hgrows.serial, ⟨hstands.parent?, ?_⟩, ?_, fun x ↦ ?_, fun x hx ↦ ?_⟩
  · rw [← Bool.not_eq_true, hstands.isAttached_iff hc.forest.wellFormed.topmost (by simp)]
    simpa using hroot
  · have halike : (Grove.single id data sub).Alike (.single d.fresh data sub') := .tree hc.alike .bare
    exact (List.cons.inj (hstands.outline.trans (halike.outlines_eq.trans h.outline.symm))).1
  · rw [hstands.descendants, List.mem_cons]
    constructor
    · intro hx
      have hin : x ∈ (plug [] (.single d.fresh data sub')).order := by simpa using hx
      refine ⟨hstands.holds.known x hin, ?_⟩
      rcases hx with rfl | hx
      · exact node?_fresh d
      · exact (Grows.create d data).unknown (hc.new x hx)
    · rintro ⟨hx, hnew⟩
      refine (hc.made x hx).imp_left fun hknown ↦ ?_
      by_contra hne
      exact hknown (by rw [node?_create, if_neg hne, hnew])
  · rw [hc.stay x (by rwa [hold x hx]) fun heq ↦ hx (heq ▸ node?_fresh d), hold x hx]

/-- Every node of a well-formed document can be copied within the document, and into every other one.
The copy is a tree of its own, equal to what it is a copy of and made of all the new nodes, and the
handles of these are no handles of another document. -/
theorem copies_duplicate (h : d.WellFormed) :
    (∀ id, d.node? id ≠ none → ∃ copy e, d.deepClone id = .ok (copy, e) ∧ Duplicates d d e id copy) ∧
    ∀ source : Document, source.WellFormed → ∀ id, source.node? id ≠ none → ∃ copy e, d.importSubtree source id = .ok (copy, e) ∧
      Duplicates source d e id copy ∧ (source.serial ≠ d.serial → ∀ x ∈ e.descendants copy, source.node? x = none) := by
  refine ⟨fun id hid ↦ ?_, fun source hsource id hid ↦ ?_⟩
  · obtain ⟨sub, data, fs, hplace⟩ := h.forest.exists_place hid
    exact hplace.duplicates h.forest (Nat.lt_succ_self _)
  · obtain ⟨sub, data, fs, hplace⟩ := hsource.forest.exists_place hid
    obtain ⟨copy, e, hon, hcopy⟩ := hplace.duplicates h.forest (Nat.lt_succ_self _)
    refine ⟨copy, e, hon, hcopy, fun hserial x hx ↦ if_neg fun hdocument ↦ hserial ?_⟩
    obtain ⟨n, hn⟩ := Option.ne_none_iff_exists'.1 ((hcopy.new x).1 hx).1
    rw [← hdocument, document_eq hn, hcopy.serial]

theorem copies_duplicate_loosePart : loosePart.WellFormed ∧ (ofText 7 "x\ny").WellFormed ∧ ∃ e f,
    loosePart.deepClone ⟨0, 1⟩ = .ok (⟨0, 7⟩, e) ∧ Duplicates loosePart loosePart e ⟨0, 1⟩ ⟨0, 7⟩ ∧
    e.descendants ⟨0, 7⟩ = [⟨0, 7⟩, ⟨0, 8⟩, ⟨0, 9⟩] ∧
    loosePart.importSubtree (ofText 7 "x\ny") ⟨7, 3⟩ = .ok (⟨0, 7⟩, f) ∧
    Duplicates (ofText 7 "x\ny") loosePart f ⟨7, 3⟩ ⟨0, 7⟩ ∧ (ofText 7 "x\ny").node? ⟨0, 8⟩ = none := by
  have htext := (forest_ofText 7 "x\ny").wellFormed
  obtain ⟨hclone, himport⟩ := copies_duplicate wellFormed_loosePart
  obtain ⟨copy, e, hon, hcopy⟩ := hclone ⟨0, 1⟩ (by decide)
  obtain ⟨part, f, hon', hpart, hapart⟩ := himport _ htext ⟨7, 3⟩ (by decide)
  have hrun : loosePart.deepClone ⟨0, 1⟩ = .ok (⟨0, 7⟩, _) := rfl
  have hrun' : loosePart.importSubtree (ofText 7 "x\ny") ⟨7, 3⟩ = .ok (⟨0, 7⟩, _) := rfl
  obtain ⟨rfl, rfl⟩ := Prod.mk.inj (Except.ok.inj (hrun.symm.trans hon))
  obtain ⟨rfl, rfl⟩ := Prod.mk.inj (Except.ok.inj (hrun'.symm.trans hon'))
  exact ⟨wellFormed_loosePart, htext, _, _, hon, hcopy, by decide, hon', hpart, hapart (by decide) _ (by decide)⟩

end Document

end Stencil
