import Stencil.Proofs.Grove.Order
import Stencil.Proofs.Run.Course
import Stencil.Proofs.Scan.Visits
/-!
What a scan has passed. Wherever the scan goes on, a placeholder that was met lies before that node or is
out of the tree, so that it is not met again and what was written there is not read. The one way back is a
merge: the scan goes on in the blocks merged, and the block of the marker is behind them, with all that
stands before the marker in it.
-/

namespace Stencil

open Document (paragraphTag rootTag)

/-! ### Pages as trees -/

namespace Paragraph

def leafTrees : List Leaf → Grove
  | [] => .bare
  | l :: ls => .tree l.id l.content.data .bare (leafTrees ls)

def trees : List Paragraph → Grove
  | [] => .bare
  | b :: bs => .tree b.id (.element paragraphTag []) (leafTrees b.leaves) (trees bs)

theorem tops_leafTrees (ls : List Leaf) : (leafTrees ls).tops = ls.map Leaf.id := by
  induction ls with
  | nil => rfl
  | cons l ls ih => rw [leafTrees, Grove.tops, ih, List.map_cons]

theorem order_leafTrees (ls : List Leaf) : (leafTrees ls).order = ls.map Leaf.id := by
  induction ls with
  | nil => rfl
  | cons l ls ih => rw [leafTrees, Grove.order, ih, Grove.order, List.nil_append, List.map_cons]

theorem tops_trees (bs : List Paragraph) : (trees bs).tops = bs.map Paragraph.id := by
  induction bs with
  | nil => rfl
  | cons b bs ih => rw [trees, Grove.tops, ih, List.map_cons]

theorem order_trees (bs : List Paragraph) : (trees bs).order = order bs := by
  induction bs with
  | nil => rfl
  | cons b bs ih => rw [trees, Grove.order, order_leafTrees, ih, order_cons, ids, List.cons_append]

theorem proper_leafTrees (ls : List Leaf) : (leafTrees ls).Proper := by
  induction ls with
  | nil => trivial
  | cons l ls ih => exact ⟨fun _ ↦ rfl, trivial, ih⟩

theorem proper_trees (bs : List Paragraph) : (trees bs).Proper := by
  induction bs with
  | nil => trivial
  | cons b bs ih => exact ⟨fun ⟨_, h⟩ ↦ (by cases h), proper_leafTrees b.leaves, ih⟩

end Paragraph

namespace Document

variable {d : Document} {page above below : List Paragraph} {bid x y : NodeId} {leaves : List Leaf}

theorem holds_leafTrees {parent : NodeId} {ls : List Leaf} (h : ∀ l ∈ ls, d.HasLeaf parent l) :
    d.Holds (some parent) (Paragraph.leafTrees ls) := by
  induction ls with
  | nil => trivial
  | cons l ls ih =>
    rw [List.forall_mem_cons] at h
    exact ⟨h.1, trivial, ih h.2⟩

theorem holds_trees {parent? : Option NodeId} {bs : List Paragraph} (h : ∀ b ∈ bs, d.HasBlock parent? b) :
    d.Holds parent? (Paragraph.trees bs) := by
  induction bs with
  | nil => trivial
  | cons b bs ih =>
    rw [List.forall_mem_cons] at h
    exact ⟨by rw [Paragraph.tops_leafTrees]; exact h.1.node, holds_leafTrees h.1.leaves, ih h.2⟩

namespace Shows

theorem stands (h : d.Shows page) : d.Stands (.single d.root (.element rootTag []) (Paragraph.trees page)) where
  single := ⟨_, _, _, rfl⟩
  holds := ⟨by rw [Paragraph.tops_trees]; exact h.root, holds_trees h.blocks, trivial⟩
  nodup := by
    rw [Grove.order_single, Paragraph.order_trees]
    exact h.nodup
  proper := ⟨fun ⟨_, h⟩ ↦ (by cases h), Paragraph.proper_trees page, trivial⟩

theorem compareOrder? (h : d.Shows page) {xs ys zs : List NodeId} (hsplit : d.root :: Paragraph.order page = xs ++ x :: (ys ++ y :: zs)) :
    d.compareOrder? x y = some .lt ∧ d.compareOrder? y x = some .gt := by
  have horder : (Grove.single d.root (.element rootTag []) (Paragraph.trees page)).order = xs ++ x :: (ys ++ y :: zs) := by
    rw [Grove.order_single, Paragraph.order_trees, hsplit]
  have hlt := idxOf_lt_idxOf h.stands.nodup horder
  obtain ⟨hxy, hyx⟩ := h.stands.compareOrder?_of_order h.parent?_root rfl horder
  exact ⟨by rw [hxy, Nat.compare_eq_lt.2 hlt], by rw [hyx, Nat.compare_eq_gt.2 hlt]⟩

theorem blockOf_block (h : d.Shows (above ++ ⟨bid, leaves⟩ :: below)) : d.blockOf bid = bid := by
  have htag : (d.tag? bid == some paragraphTag) = true := by
    rw [h.tag?_block (b := ⟨bid, leaves⟩) (by simp)]
    rfl
  rw [blockOf, List.find?_cons, htag]
  rfl

/-- What stands in a block is the block or one of its leaves. -/
theorem blockOf_eq_iff (h : d.Shows (above ++ ⟨bid, leaves⟩ :: below)) : d.blockOf x = bid ↔ x ∈ bid :: leaves.map Leaf.id := by
  have hb : (⟨bid, leaves⟩ : Paragraph) ∈ above ++ ⟨bid, leaves⟩ :: below := by simp
  have hclimb : ∀ (n : ℕ) (x : NodeId), bid ∈ d.climb n x → x ∈ leaves.map Leaf.id := by
    intro n
    induction n with
    | zero => simp [climb]
    | succ n ih =>
      intro x hx
      rw [climb] at hx
      cases hparent : d.parent? x with
      | none => simp [hparent] at hx
      | some p =>
        have hchild := h.linked x p hparent
        simp only [hparent, List.mem_cons] at hx
        rcases hx with rfl | hx
        · rwa [h.children_block hb] at hchild
        · -- nothing is below a leaf
          obtain ⟨l, hl, rfl⟩ := List.mem_map.1 (ih p hx)
          rw [h.children_leaf hb hl] at hchild
          contradiction
  constructor
  · intro hblock
    have hmem := d.blockOf_mem x
    rw [hblock, List.mem_cons] at hmem
    rcases hmem with rfl | hmem
    · exact List.mem_cons_self ..
    · exact List.mem_cons_of_mem _ (hclimb _ _ hmem)
  · intro hx
    rcases List.mem_cons.1 hx with rfl | hx
    · exact h.blockOf_block
    · obtain ⟨l, hl, rfl⟩ := List.mem_map.1 hx
      exact h.blockOf_leaf hb hl

end Shows

end Document

/-! ### Behind and ahead -/

/-- A node is left behind where a scan goes on at another: it is out of the tree, or comes before that one. -/
def Document.Trails (d : Document) (next id : NodeId) : Prop := d.isAttached id = false ∨ d.compareOrder? id next = some .lt

namespace Galley

variable {G : Galley} {d : Document} {id n : NodeId}

/-- What lies behind the node that a scan goes on at is what is not ahead. -/
theorem behind_iff (h : d.Shows G.page) (hnext : G.next? = some n) : d.Trails n id ↔ id ∉ G.ahead := by
  obtain ⟨rest, hahead⟩ : ∃ rest, G.ahead = n :: rest := by
    rw [next?_eq] at hnext
    cases hahead : G.ahead with
    | nil => simp [hahead] at hnext
    | cons m rest => exact ⟨rest, by simp_all⟩
  have horder : d.root :: Paragraph.order G.page = (d.root :: G.passed) ++ n :: rest := by rw [order_page, hahead, List.cons_append]
  have hattached : d.isAttached id = true ↔ id ∈ (d.root :: G.passed) ++ n :: rest := by rw [← horder]; exact h.isAttached_iff
  rw [Document.Trails, hahead]
  constructor
  · rintro hbehind hid
    rcases hbehind with hout | hlt
    · rw [hattached.2 (List.mem_append_right _ hid)] at hout
      contradiction
    · rcases List.mem_cons.1 hid with rfl | hid
      · simp [Document.compareOrder?] at hlt
      · obtain ⟨ys, zs, rfl⟩ := List.append_of_mem hid
        rw [(h.compareOrder? horder).2] at hlt
        contradiction
  · intro hid
    by_cases hin : id ∈ d.root :: G.passed
    · obtain ⟨xs, ys, hsplit⟩ := List.append_of_mem hin
      rw [hsplit, List.append_assoc, List.cons_append] at horder
      exact .inr (h.compareOrder? horder).1
    · refine .inl (Bool.not_eq_true _ ▸ fun hattached' ↦ ?_)
      exact (List.mem_append.1 (hattached.1 hattached')).elim hin hid

theorem mem_leaves_of_behind {l : Leaf} (h : l ∈ G.behind) : ∃ b ∈ G.page, l ∈ b.leaves := by
  rw [← List.mem_flatMap]
  cases G with
  | within above bid left right below =>
    rw [page, List.flatMap_append, List.flatMap_cons]
    exact (List.mem_append.1 h).elim (List.mem_append_left _)
      fun h ↦ List.mem_append_right _ (List.mem_append_left _ (List.mem_append_left _ h))
  | between above below =>
    rw [page, List.flatMap_append]
    exact List.mem_append_left _ h
  | halted page => exact h

end Galley

/-! ### Visits -/

namespace Visit

def events (v : Visit) : List Event := v.left.log.take (v.left.log.length - v.met.log.length)

def Passes (v : Visit) (id : NodeId) : Prop := ∀ next, v.next? = some next → v.left.document.Trails next id

/-- A visit comes back to a node: blocks were merged at it, and the node stood in the block of the placeholder, and stays. -/
def Returns (v : Visit) (id : NodeId) : Prop :=
  (∃ e ∈ v.events, e.merges = true) ∧ v.next?.isSome = true ∧ v.left.document.isAttached id = true ∧
    v.met.document.blockOf id = v.met.document.blockOf v.node

/-- A placeholder is another one than a node, and the text of that node is as it was left, as far as it is in the tree. -/
structure Spares (v : Visit) (id : NodeId) (written? : Option String) : Prop where
  node : v.node ≠ id
  written : v.met.document.isAttached id = true → v.met.document.isText id = true → v.met.document.text? id = written?

instance (v : Visit) (id : NodeId) : Decidable (v.Returns id) := inferInstanceAs (Decidable (_ ∧ _ ∧ _ ∧ _))

theorem events_eq {v : Visit} {new : List Event} (h : v.left.log = new ++ v.met.log) : v.events = new := by
  rw [events, h, List.length_append, Nat.add_sub_cancel, List.take_left]

structure Meets (v : Visit) (G : Galley) (s : Slot) : Prop where
  node : v.node = s.mark.id
  grows : v.before.document.Grows v.met.document
  page : v.met.document.Shows s.page
  meets : G.Meets v.before.document s

end Visit

/-- Visits one after another, each of the marker that is met from the galley which the one before it leaves. -/
inductive Galley.Course : RunState → Galley → List Visit → Prop where
  | nil {r : RunState} {G : Galley} : Course r G []
  | last {v : Visit} {G : Galley} {s : Slot} : v.Meets G s → v.next? = none → Course v.before G [v]
  | cons {v : Visit} {G G' : Galley} {s : Slot} {vs : List Visit} : v.Meets G s → s.Turns v.met v.left G' →
      v.next? = G'.next? → Course v.left G' vs → Course v.before G (v :: vs)

theorem Scanner.course_visits {t : Delimiters} {sc : Scanner} {m : Manual} (hs : sc.registry = .builtin)
    (htoolkit : sc.toolkit = .ofDelimiters t) (hm : sc.Follows m) :
    ∀ (n : ℕ) (r : RunState) (G : Galley) (id : NodeId), (∃ result r₁, (Run.search (.ofDelimiters t) id).on r = (.ok result, r₁) ∧
      r.Keeps r₁ ∧ G.Finds t r.document r₁.document result) → G.Course r (sc.visits n id r) := by
  intro n
  induction n with
  | zero =>
    rintro r G id -
    rw [visits_zero]
    exact .nil
  | succ n ih =>
    rintro r G id ⟨result, r₁, hsearch, hkeeps, hfinds⟩
    rw [← htoolkit] at hsearch
    cases hfinds with
    | nothing =>
      rw [visits_nil fun found hfound ↦ by rw [hsearch] at hfound; cases hfound]
      exact .nil
    | @marker s payload hpage hcontent hread hfind hmeets =>
      obtain ⟨result, r₂, hvisit, hends⟩ := visit_on hs htoolkit hm hpage hcontent hread
      let v (next? : Option NodeId) : Visit := ⟨id, s.mark.id, r, r₁, r₂, next?⟩
      have hv : ∀ next?, (v next?).Meets G s := fun _ ↦ ⟨rfl, hkeeps.grows, hpage, hmeets⟩
      cases hends with
      | failed =>
        rw [visits_last hsearch fun next hnext ↦ (by rw [hvisit] at hnext; cases hnext), hvisit]
        exact .last (hv none) rfl
      | @turned next? G' hturns hgoes =>
        cases next? with
        | none =>
          rw [visits_last hsearch fun next hnext ↦ (by rw [hvisit] at hnext; cases hnext), hvisit]
          exact .last (hv none) rfl
        | some next =>
          rw [visits_cons hsearch hvisit]
          exact .cons (hv (some next)) hturns hgoes (ih r₂ G' next (Galley.search_on hturns.page hgoes.symm))

/-! ### What was passed -/

def Content.text? : Content → Option String
  | .text s => some s
  | .image _ => none

theorem Document.Shows.text?_eq {d : Document} {page : List Paragraph} {b : Paragraph} {l : Leaf} (h : d.Shows page) (hb : b ∈ page)
    (hl : l ∈ b.leaves) : d.text? l.id = l.content.text? := by
  rw [h.text?_leaf hb hl]
  cases l.content <;> rfl

/-- A node that the scan has passed in a galley, with the text that it held then. -/
structure Galley.HasPassed (G : Galley) (d : Document) (id : NodeId) (written? : Option String) : Prop where
  known : d.node? id ≠ none
  ahead : id ∉ G.ahead
  written : ∀ l ∈ G.behind, l.id = id → l.content.text? = written?

/-- A node that the scan has passed when it meets a slot, with the text that it held then. -/
structure Slot.HasPassed (s : Slot) (d : Document) (id : NodeId) (written? : Option String) : Prop where
  known : d.node? id ≠ none
  mark : s.mark.id ≠ id
  ahead : id ∉ s.ahead
  written : ∀ l ∈ s.behind, l.id = id → l.content.text? = written?

variable {v : Visit} {G G' : Galley} {s : Slot} {id : NodeId} {written? : Option String} {r : RunState} {vs : List Visit}

theorem Galley.HasPassed.meets (h : G.HasPassed v.before.document id written?) (hmeets : v.Meets G s) :
    s.HasPassed v.met.document id written? where
  known := hmeets.grows.known id h.known
  mark heq := hmeets.meets.mark.elim (heq ▸ h.ahead) (heq ▸ h.known)
  ahead hin := (hmeets.meets.ahead id hin).elim h.ahead h.known
  written l hl heq := by
    rcases hmeets.meets.behind l hl with hl | hl | hl
    · exact h.written l hl heq
    · exact absurd (heq ▸ hl) h.ahead
    · exact absurd (heq ▸ hl) h.known

namespace Slot

theorem nodup_page {d : Document} (h : d.Shows s.page) :
    (Paragraph.order s.above ++ (s.bid :: s.left.map Leaf.id) ++ s.mark.id :: s.ahead).Nodup := by
  have hnodup := (List.nodup_cons.1 h.nodup).2
  simpa [page, ahead, Paragraph.order, Paragraph.ids] using hnodup

/-- At a slot, a node of its block that was passed stands before the marker, or is the block. -/
theorem HasPassed.blockOf_eq_iff (h : s.HasPassed v.met.document id written?) (hmeets : v.Meets G s) :
    v.met.document.blockOf id = v.met.document.blockOf v.node ↔ id ∈ s.bid :: s.left.map Leaf.id := by
  have hshows : v.met.document.Shows (s.above ++ ⟨s.bid, s.left ++ s.mark :: s.right⟩ :: s.below) := hmeets.page
  have hnode : v.met.document.blockOf v.node = s.bid := hshows.blockOf_eq_iff.2 (by simp [hmeets.node])
  have hright : id ∉ s.right.map Leaf.id := fun hin ↦ h.ahead (List.mem_append_left _ hin)
  rw [hnode, hshows.blockOf_eq_iff, List.map_append, List.map_cons, ← List.cons_append, List.mem_append, List.mem_cons]
  exact ⟨fun hin ↦ hin.resolve_right fun hin ↦ (List.mem_cons.1 hin).elim (h.mark ·.symm) hright, .inl⟩

/-- A node that was passed is ahead again where blocks were merged in front of its block, if it stays. -/
theorem HasPassed.ahead_iff (h : s.HasPassed v.met.document id written?) (hmeets : v.Meets G s) (hturns : s.Turns v.met v.left G')
    (hnext : v.next? = G'.next?) : id ∈ G'.ahead ↔ v.Returns id := by
  obtain ⟨again, new, hlog, honward, hagain⟩ := hturns.onward
  rw [Visit.Returns, Visit.events_eq hlog, h.blockOf_eq_iff hmeets, hturns.page.isAttached_iff]
  constructor
  · intro hin
    have hbehind : id ∈ again := ((honward.ahead id hin).resolve_right fun hin ↦ hin.elim h.ahead h.known)
    obtain ⟨hmerges, rfl⟩ := hagain.resolve_left fun ⟨_, hnil⟩ ↦ by simp [hnil] at hbehind
    refine ⟨hmerges, ?_, List.mem_cons_of_mem _ ?_, hbehind⟩
    · rw [hnext, Galley.next?_eq]
      exact List.isSome_head?.2 (List.ne_nil_of_mem hin)
    · have horder : id ∈ Paragraph.order G'.page := by rw [Galley.order_page]; exact List.mem_append_right _ hin
      exact horder
  · rintro ⟨⟨e, he, hmerges⟩, -, hin, hblock⟩
    obtain ⟨-, rfl⟩ := hagain.resolve_left fun ⟨hquiet, _⟩ ↦ by simp [hquiet e he] at hmerges
    refine honward.back id hblock ((List.mem_cons.1 hin).resolve_left ?_)
    -- the root stands in no block
    rintro rfl
    have hroot : v.met.document.root ∉ Paragraph.order s.page := (List.nodup_cons.1 hmeets.page.nodup).1
    rw [hturns.grows.root] at hblock
    refine hroot ?_
    rw [page, Paragraph.order_append, Paragraph.order_cons, Paragraph.ids, List.map_append, ← List.cons_append]
    exact List.mem_append_right _ (List.mem_append_left _ (List.mem_append_left _ hblock))

theorem HasPassed.turns (h : s.HasPassed v.met.document id written?) (hmeets : v.Meets G s) (hturns : s.Turns v.met v.left G')
    (hnext : v.next? = G'.next?) (hreturns : ¬v.Returns id) : G'.HasPassed v.left.document id written? where
  known := hturns.grows.known id h.known
  ahead hin := hreturns ((h.ahead_iff hmeets hturns hnext).1 hin)
  written l hl heq := by
    obtain ⟨_, _, _, honward, _⟩ := hturns.onward
    rcases honward.behind l hl with hl | hl | hl | hl
    · exact h.written l hl heq
    · exact absurd (hl.symm.trans heq) h.mark
    · exact absurd (heq ▸ hl) h.ahead
    · exact absurd (heq ▸ hl) h.known

theorem passed_mark (hmeets : v.Meets G s) (hturns : s.Turns v.met v.left G') :
    G'.HasPassed v.left.document v.node (v.left.document.text? v.node) := by
  obtain ⟨hnode, -, hpage, -⟩ := hmeets
  obtain ⟨again, new, -, honward, hagain⟩ := hturns.onward
  have hnodup := s.nodup_page hpage
  obtain ⟨-, hbehind, hapart⟩ := List.nodup_append.1 hnodup
  have hknown : v.met.document.node? s.mark.id ≠ none :=
    hpage.known _ (by simp [page, Paragraph.ids])
  rw [hnode]
  refine ⟨hturns.grows.known _ hknown, fun hin ↦ ?_, fun l hl heq ↦ ?_⟩
  · rcases honward.ahead _ hin with hin | hin | hin
    · rcases hagain with ⟨-, rfl⟩ | ⟨-, rfl⟩
      · contradiction
      · exact hapart _ (List.mem_append_right _ hin) _ (List.mem_cons_self ..) rfl
    · exact (List.nodup_cons.1 hbehind).1 hin
    · exact hknown hin
  · obtain ⟨b, hb, hl⟩ := Galley.mem_leaves_of_behind hl
    rw [← heq, hturns.page.text?_eq hb hl]

theorem HasPassed.spares (h : s.HasPassed v.met.document id written?) (hmeets : v.Meets G s) : v.Spares id written? where
  node heq := h.mark (hmeets.node ▸ heq)
  written hattached htext := by
    have hshows : v.met.document.Shows (s.above ++ ⟨s.bid, s.left ++ s.mark :: s.right⟩ :: s.below) := hmeets.page
    rw [hshows.isAttached_iff] at hattached
    rcases List.mem_cons.1 hattached with rfl | hid
    · simp [Document.isText, Document.text?, Document.data?, hshows.root] at htext
    obtain ⟨b, hb, hid⟩ := List.mem_flatMap.1 hid
    rcases List.mem_cons.1 hid with rfl | hid
    · rw [Document.isText, hshows.text?_block hb] at htext
      contradiction
    obtain ⟨l, hl, rfl⟩ := List.mem_map.1 hid
    rw [hshows.text?_eq hb hl]
    refine h.written l ?_ rfl
    have hleaf : l ∈ s.behind ∨ l = s.mark ∨ l.id ∈ s.ahead := by
      rw [Slot.behind, Slot.ahead]
      rcases List.mem_append.1 hb with hb | hb
      · exact .inl (List.mem_append_left _ (List.mem_flatMap.2 ⟨b, hb, hl⟩))
      rcases List.mem_cons.1 hb with rfl | hb
      · rcases List.mem_append.1 hl with hl | hl
        · exact .inl (List.mem_append_right _ hl)
        · exact .inr ((List.mem_cons.1 hl).imp_right fun hl ↦ List.mem_append_left _ (List.mem_map_of_mem hl))
      · exact .inr (.inr (List.mem_append_right _ (Paragraph.mem_order_of_leaf (List.mem_flatMap.2 ⟨b, hb, hl⟩))))
    exact hleaf.resolve_right fun hleaf ↦ hleaf.elim (fun heq ↦ h.mark (heq ▸ rfl)) h.ahead

end Slot

namespace Galley

/-- Visits leave a node behind that was passed exactly when none of them comes back to it. -/
theorem Course.passes_iff (h : G.Course r vs) (hid : G.HasPassed r.document id written?) :
    (∀ v ∈ vs, v.Passes id) ↔ ∀ v ∈ vs, ¬v.Returns id := by
  induction h with
  | nil => simp
  | @last v _ s hmeets hnext => simp [Visit.Passes, Visit.Returns, hnext]
  | @cons v G G' s vs hmeets hturns hnext _ ih =>
    have hmet := hid.meets hmeets
    have hone : v.Passes id ↔ ¬v.Returns id := by
      rw [← hmet.ahead_iff hmeets hturns hnext, Visit.Passes, hnext]
      cases hfirst : G'.next? with
      | none =>
        have hahead : G'.ahead = [] := by simpa [next?_eq] using hfirst
        simp [hahead]
      | some n => simpa using behind_iff hturns.page hfirst
    rw [List.forall_mem_cons, List.forall_mem_cons, hone]
    exact and_congr_right fun hreturns ↦ ih (hmet.turns hmeets hturns hnext hreturns)

theorem Course.spares (h : G.Course r vs) (hid : G.HasPassed r.document id written?) (hreturns : ∀ v ∈ vs, ¬v.Returns id) :
    ∀ v ∈ vs, v.Spares id written? := by
  induction h with
  | nil => simp
  | last hmeets _ => simpa using (hid.meets hmeets).spares hmeets
  | cons hmeets hturns hnext _ ih =>
    rw [List.forall_mem_cons] at hreturns ⊢
    have hmet := hid.meets hmeets
    exact ⟨hmet.spares hmeets, ih (hmet.turns hmeets hturns hnext hreturns.1) hreturns.2⟩

theorem Course.passes_self (h : G.Course r vs) : ∀ v ∈ vs, v.Passes v.node := by
  induction h with
  | nil => simp
  | last hmeets hnext => simp [Visit.Passes, hnext]
  | cons hmeets hturns hnext _ ih =>
    refine List.forall_mem_cons.2 ⟨fun n hn ↦ ?_, ih⟩
    exact (behind_iff hturns.page (hnext ▸ hn)).2 (Slot.passed_mark hmeets hturns).ahead

theorem Course.pairwise (h : G.Course r vs) :
    ((vs.Pairwise fun u v ↦ v.Passes u.node) ↔ vs.Pairwise fun u v ↦ ¬v.Returns u.node) ∧
      ((vs.Pairwise fun u v ↦ ¬v.Returns u.node) → vs.Pairwise fun u v ↦ v.Spares u.node (u.left.document.text? u.node)) := by
  induction h with
  | nil => simp
  | last => simp
  | cons hmeets hturns _ hcourse ih =>
    have hmark := Slot.passed_mark hmeets hturns
    rw [List.pairwise_cons, List.pairwise_cons, List.pairwise_cons]
    exact ⟨and_congr (hcourse.passes_iff hmark) ih.1, And.imp (hcourse.spares hmark) ih.2⟩

end Galley

/-! ### Runs -/

namespace Renderer

variable (R : Renderer)

/-- Wherever a run goes on, the placeholder that it has just met lies behind. So do all those met before, exactly as
long as no blocks are merged in front of a block in which one of them stays; and as long, no placeholder is met twice and
nothing is read of what was written in the place of one. -/
theorem visits_pass (hs : R.registry = .builtin) (t : Delimiters) (w : Workshop) (serial : ℕ) (template : String) (M : Model) :
    (∀ v ∈ R.visits (.ofDelimiters t) w (.ofText serial template) M, v.Passes v.node) ∧
      (((R.visits (.ofDelimiters t) w (.ofText serial template) M).Pairwise fun u v ↦ v.Passes u.node) ↔
        (R.visits (.ofDelimiters t) w (.ofText serial template) M).Pairwise fun u v ↦ ¬v.Returns u.node) ∧
      (((R.visits (.ofDelimiters t) w (.ofText serial template) M).Pairwise fun u v ↦ ¬v.Returns u.node) →
        (R.visits (.ofDelimiters t) w (.ofText serial template) M).Pairwise fun u v ↦
          v.Spares u.node (u.left.document.text? u.node)) := by
  obtain ⟨page, hshows, -⟩ := Document.shows_ofText serial template
  obtain ⟨m, hm, -⟩ := Scanner.exists_follows (s := R.scanner (.ofDelimiters t)) hs (List.mem_singleton_self "Clone")
  have hroot : ∃ result r₁, (Run.search (.ofDelimiters t) (Document.ofText serial template).root).on
      (R.begun w (.ofText serial template) M) = (.ok result, r₁) ∧ (R.begun w (.ofText serial template) M).Keeps r₁ ∧
        (Galley.between [] page).Finds t (Document.ofText serial template) r₁.document result := by
    obtain ⟨e, split?, result, hsearch, hfound, hgrows⟩ := hshows.search_root (t := t)
    obtain ⟨r₁, hon, hdoc, hkeeps⟩ := Run.search_on (r := R.begun w (.ofText serial template) M) hsearch hgrows
    exact ⟨result, r₁, hon, hkeeps, hdoc ▸ Galley.finds_below hfound⟩
  have hcourse := Scanner.course_visits (show (R.scanner (.ofDelimiters t)).registry = .builtin from hs) rfl hm R.settings.maxSteps _ _ _ hroot
  exact ⟨hcourse.passes_self, hcourse.pairwise⟩

/-- The visits of a run over lines, with a marker in the text of a variable. -/
def visitsOf (lines : String) : List Visit :=
  plain.visits (.ofDelimiters .default) plain.workshop (.ofText 0 lines)
    (.ofData (.map [("a", .leaf (.str "$\x7b@b\x7d")), ("b", .leaf (.str "secret"))]))

def valueAbove : String := "$\x7b@a\x7d\n$\x7bImport value:\"x\"\x7d $\x7b@b\x7d"

def valueBeside : String := "$\x7b@a\x7d $\x7bImport value:\"x\"\x7d"

/-- A value in the block above that of an `Import` is passed for good; in the same block its marker is met. -/
theorem visits_pass_values : (visitsOf valueAbove).map Visit.marker = ["$\x7b@a\x7d", "$\x7bImport value:\"x\"\x7d", "$\x7b@b\x7d"] ∧
    ((visitsOf valueAbove).Pairwise fun u v ↦ v.Spares u.node (u.left.document.text? u.node)) ∧
    (visitsOf valueBeside).map Visit.marker = ["$\x7b@a\x7d", "$\x7bImport value:\"x\"\x7d", "$\x7b@b\x7d"] ∧
    ¬(visitsOf valueBeside).Pairwise fun u v ↦ v.Passes u.node := by
  have hregistry : plain.registry = .builtin := rfl
  obtain ⟨-, -, hspares⟩ := plain.visits_pass hregistry .default plain.workshop 0 valueAbove
    (.ofData (.map [("a", .leaf (.str "$\x7b@b\x7d")), ("b", .leaf (.str "secret"))]))
  obtain ⟨-, hpasses, -⟩ := plain.visits_pass hregistry .default plain.workshop 0 valueBeside
    (.ofData (.map [("a", .leaf (.str "$\x7b@b\x7d")), ("b", .leaf (.str "secret"))]))
  exact ⟨by decide +kernel, hspares (by decide +kernel), by decide +kernel, fun h ↦ absurd (hpasses.1 h) (by decide +kernel)⟩

end Renderer

end Stencil
