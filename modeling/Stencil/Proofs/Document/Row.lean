import Stencil.Proofs.Document.Division
import Stencil.Proofs.Document.Placeholder
import Stencil.Run.Area
/-!
Rows of siblings: the leaves of a block, or the blocks of a page. An area is a stretch of a row, and
what is done to its items is the same for both.
-/

namespace Stencil

open Document

/-- A row of siblings in a page. A leaf of an item has a place, and a path leads there; a walk along
the row leaves it behind the last item. -/
structure Row where
  Item : Type
  parent : Document → NodeId
  page : List Item → List Paragraph
  id : Item → NodeId
  ids : Item → List NodeId
  leaves : Item → List Leaf
  path : ℕ → List ℕ
  next? : List Item → Option NodeId

namespace Row

def contents (R : Row) (x : R.Item) : List Content := (R.leaves x).map Leaf.content

def ofLeaves (above : List Paragraph) (bid : NodeId) (below : List Paragraph) : Row where
  Item := Leaf
  parent _ := bid
  page ls := above ++ ⟨bid, ls⟩ :: below
  id := Leaf.id
  ids l := [l.id]
  leaves l := [l]
  path _ := []
  next? ls := ahead? ls below

def ofBlocks : Row where
  Item := Paragraph
  parent d := d.root
  page bs := bs
  id := Paragraph.id
  ids := Paragraph.ids
  leaves := Paragraph.leaves
  path k := [k]
  next? bs := (bs.map Paragraph.id).head?

/-- What the edits of an area rely on. -/
structure Lawful (R : Row) : Prop where
  parent {d e : Document} : Grows d e → R.parent e = R.parent d
  children {d : Document} {items : List R.Item} : d.Shows (R.page items) → d.children (R.parent d) = items.map R.id
  next?_cons (x : R.Item) (items : List R.Item) : R.next? (x :: items) = some (R.id x)
  nextAfter? {d : Document} {left right : List R.Item} {x : R.Item} : d.Shows (R.page (left ++ x :: right)) →
    d.nextAfter? (R.id x) = R.next? right
  detach {d : Document} {left right : List R.Item} {x : R.Item} : d.Shows (R.page (left ++ x :: right)) →
    ∃ e, d.detach (R.id x) = .ok e ∧ e.Shows (R.page (left ++ right)) ∧ Grows d e
  clone {d : Document} {left right : List R.Item} {m x : R.Item} : d.Shows (R.page (left ++ m :: right)) →
    x ∈ left ++ m :: right → ∃ y e f, d.deepClone (R.id x) = .ok (R.id y, e) ∧
      e.insertBefore (R.id m) (R.id y) = .ok f ∧ f.Shows (R.page (left ++ y :: m :: right)) ∧ Grows d f ∧
      R.contents y = R.contents x ∧ ∀ id ∈ R.ids y, d.node? id = none
  relabel {d : Document} {left right : List R.Item} {y : R.Item} {front back : List Content} {s : String} :
    d.Shows (R.page (left ++ y :: right)) → R.contents y = front ++ .text s :: back → ∀ t, ∃ z e marker,
      Area.followDown? d (R.id y) (R.path front.length) = some marker ∧ d.setText marker t = .ok e ∧
      e.Shows (R.page (left ++ z :: right)) ∧ Grows d e ∧ R.id z = R.id y ∧ R.ids z = R.ids y ∧
      R.contents z = front ++ .text t :: back
  pathBelow {d : Document} {left right : List R.Item} {x : R.Item} {front back : List Leaf} {l : Leaf} :
    d.Shows (R.page (left ++ x :: right)) → R.leaves x = front ++ l :: back →
      Area.pathBelow? d (R.id x) (d.size + 1) l.id [] = some (R.path front.length)

variable {above below : List Paragraph} {bid : NodeId}

theorem lawful_ofLeaves : (ofLeaves above bid below).Lawful where
  parent _ := rfl
  children {d items} h := h.children_block (b := ⟨bid, items⟩) (List.mem_append_right _ (List.mem_cons_self ..))
  next?_cons _ _ := rfl
  nextAfter? h := h.nextAfter?_leaf
  detach h := by
    obtain ⟨e, he, hshows, hgrows, _⟩ := h.detach_leaf
    exact ⟨e, he, hshows, hgrows⟩
  clone {d left right m x} h hx := by
    have hb : (⟨bid, left ++ m :: right⟩ : Paragraph) ∈ above ++ ⟨bid, left ++ m :: right⟩ :: below := by simp
    have hnew : (d.create x.content.data).2.node? d.fresh = some ⟨x.content.data, none, []⟩ := by
      rw [node?_create, if_pos rfl]
    obtain ⟨f, hf, hshows, hgrows⟩ := (h.create x.content.data).insertBefore_leaf hnew h.fresh_ne_root
    refine ⟨⟨d.fresh, x.content⟩, _, f, h.deepClone_leaf hb hx, hf, hshows, (Grows.create d _).trans hgrows, rfl, ?_⟩
    intro id hid
    rw [List.mem_singleton.1 hid]
    exact node?_fresh d
  relabel {d left right y front back s} h hcontents t := by
    obtain ⟨id, content⟩ := y
    obtain ⟨rfl, rfl, rfl⟩ : front = [] ∧ content = .text s ∧ back = [] := by
      cases front <;> simp_all [contents, ofLeaves]
    obtain ⟨e, he, hshows, hgrows⟩ := h.setText t
    exact ⟨⟨id, .text t⟩, e, id, rfl, he, hshows, hgrows, rfl, rfl, rfl⟩
  pathBelow {d left right x front back l} h hl := by
    obtain ⟨rfl, hx⟩ | ⟨_, hx⟩ := List.append_eq_singleton_iff.1 (hl.symm : front ++ l :: back = [x])
    · obtain ⟨rfl, _⟩ := List.cons.inj hx
      exact if_pos rfl
    · exact absurd hx (List.cons_ne_nil _ _)

theorem lawful_ofBlocks : ofBlocks.Lawful where
  parent h := h.root
  children h := h.children_root
  next?_cons _ _ := rfl
  nextAfter? h := h.nextAfter?_block
  detach h := by
    obtain ⟨e, he, hshows, hgrows, _⟩ := h.detach_block
    exact ⟨e, he, hshows, hgrows⟩
  clone {d left right m x} h hx := by
    obtain ⟨c, e, hclone, hc⟩ := h.deepClone_block hx
    obtain ⟨f, hf, hshows, hgrows⟩ := h.insertCopy hc
    exact ⟨c, e, f, hclone, hf, hshows, hgrows, hc.contents, hc.new⟩
  relabel {d left right y front back s} h hcontents t := by
    obtain ⟨yid, leaves⟩ := y
    obtain ⟨ls, ms, rfl, rfl, hms⟩ := List.map_eq_append_iff.1 hcontents
    obtain ⟨⟨id, content⟩, ns, rfl, hcontent, rfl⟩ := List.map_eq_cons_iff.1 hms
    obtain rfl : content = .text s := hcontent
    obtain ⟨e, he, hshows, hgrows⟩ := (show d.Shows (left ++ ⟨yid, ls ++ ⟨id, .text s⟩ :: ns⟩ :: right) from h).setText t
    refine ⟨⟨yid, ls ++ ⟨id, .text t⟩ :: ns⟩, e, id, ?_, he, hshows, hgrows, rfl, ?_, ?_⟩
    · have hchildren : d.children yid = (ls ++ ⟨id, .text s⟩ :: ns).map Leaf.id :=
        h.children_block (b := ⟨yid, ls ++ ⟨id, .text s⟩ :: ns⟩) (List.mem_append_right _ (List.mem_cons_self ..))
      have hget : (d.children yid)[(ls.map Leaf.content).length]? = some id := by
        rw [hchildren]
        simp
      simp only [ofBlocks, Area.followDown?, hget, Option.bind_some]
    · simp [ofBlocks, Paragraph.ids]
    · simp [ofBlocks, contents]
  pathBelow {d left right x front back l} h hl := by
    obtain ⟨xid, leaves⟩ := x
    obtain rfl : leaves = front ++ l :: back := hl
    have hb : (⟨xid, front ++ l :: back⟩ : Paragraph) ∈ left ++ ⟨xid, front ++ l :: back⟩ :: right :=
      List.mem_append_right _ (List.mem_cons_self ..)
    have hne : l.id ≠ xid := h.leaf_ne_block hb (l := l) (by simp)
    have hparent : d.parent? l.id = some xid := h.parent?_leaf hb (l := l) (by simp)
    obtain ⟨n, hn⟩ : ∃ n, d.size = n + 1 := ⟨d.size - 1, by
      have := (show d.Shows (left ++ ⟨xid, front ++ l :: back⟩ :: right) from h).size_pos
      omega⟩
    have hindex : d.indexInParent? l.id = some front.length := (show d.Shows (left ++ ⟨xid, front ++ l :: back⟩ :: right) from h).indexInParent?_leaf
    rw [hn]
    simp only [Area.pathBelow?, ofBlocks, if_neg hne, hindex, hparent, Option.bind_some, if_true]

end Row

end Stencil
