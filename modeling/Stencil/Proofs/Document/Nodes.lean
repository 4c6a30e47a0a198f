import Stencil.Document.Toolkit
import Mathlib.Tactic
/-!
Single nodes of an arena: what an edit makes of each of them, and places in lists of siblings.
-/

namespace Stencil

attribute [ext] NodeId

namespace Document

variable {d e : Document} {id : NodeId}

/-! ### Places among siblings -/

theorem following?_append {id : NodeId} {front back : List NodeId} (h : id ∉ front) :
    following? id (front ++ id :: back) = back.head? := by
  induction front with
  | nil => simp [following?]
  | cons c cs ih =>
    have hne : c ≠ id := fun heq ↦ h (heq ▸ List.mem_cons_self ..)
    rw [List.cons_append, following?, if_neg hne]
    exact ih fun hin ↦ h (List.mem_cons_of_mem _ hin)

theorem findIdx?_append {id : NodeId} {front back : List NodeId} (h : id ∉ front) :
    (front ++ id :: back).findIdx? (· = id) = some front.length := by
  induction front with
  | nil => simp [List.findIdx?_cons]
  | cons c cs ih =>
    have hne : c ≠ id := fun heq ↦ h (heq ▸ List.mem_cons_self ..)
    rw [List.cons_append, List.findIdx?_cons]
    simp only [hne, decide_false, Bool.false_eq_true, if_false, List.length_cons]
    rw [ih fun hin ↦ h (List.mem_cons_of_mem _ hin)]
    rfl

theorem putBefore_append {ref id : NodeId} {front back : List NodeId} (h : ref ∉ front) :
    putBefore ref id (front ++ ref :: back) = front ++ id :: ref :: back := by
  induction front with
  | nil => simp [putBefore]
  | cons c cs ih =>
    have hne : c ≠ ref := fun heq ↦ h (heq ▸ List.mem_cons_self ..)
    rw [List.cons_append, putBefore, if_neg hne, ih fun hin ↦ h (List.mem_cons_of_mem _ hin), List.cons_append]

theorem putBehind_append {ref id : NodeId} {front back : List NodeId} (h : ref ∉ front) :
    putBehind ref id (front ++ ref :: back) = front ++ ref :: id :: back := by
  induction front with
  | nil => simp [putBehind]
  | cons c cs ih =>
    have hne : c ≠ ref := fun heq ↦ h (heq ▸ List.mem_cons_self ..)
    rw [List.cons_append, putBehind, if_neg hne, ih fun hin ↦ h (List.mem_cons_of_mem _ hin), List.cons_append]

theorem filter_append_ne {id : NodeId} {front back : List NodeId} (h : (front ++ id :: back).Nodup) :
    (front ++ id :: back).filter (· ≠ id) = front ++ back := by
  rw [List.nodup_append] at h
  obtain ⟨_, hback, hfront⟩ := h
  have hleft : front.filter (· ≠ id) = front := List.filter_eq_self.2 fun c hc ↦ by
    simpa using fun heq ↦ hfront c hc id (List.mem_cons_self ..) heq
  have hright : back.filter (· ≠ id) = back := List.filter_eq_self.2 fun c hc ↦ by
    simpa using fun heq : c = id ↦ (List.nodup_cons.1 hback).1 (heq ▸ hc)
  rw [List.filter_append, List.filter_cons, hleft, hright]
  simp

theorem takeWhile_ne {front back : List NodeId} (h : id ∉ front) :
    (front ++ id :: back).takeWhile (· ≠ id) = front := by
  induction front with
  | nil => simp
  | cons c cs ih =>
    have hne : c ≠ id := fun heq ↦ h (heq ▸ List.mem_cons_self ..)
    rw [List.cons_append, List.takeWhile_cons]
    simp only [ne_eq, hne, not_false_eq_true, decide_true, if_true]
    congr 1
    simpa using ih fun hin ↦ h (List.mem_cons_of_mem _ hin)

theorem dropWhile_ne {front back : List NodeId} (h : id ∉ front) :
    (front ++ id :: back).dropWhile (· ≠ id) = id :: back := by
  induction front with
  | nil => simp
  | cons c cs ih =>
    have hne : c ≠ id := fun heq ↦ h (heq ▸ List.mem_cons_self ..)
    rw [List.cons_append, List.dropWhile_cons]
    simp only [ne_eq, hne, not_false_eq_true, decide_true, if_true]
    simpa using ih fun hin ↦ h (List.mem_cons_of_mem _ hin)

/-! ### Nodes -/

@[simp] theorem modify_serial (d : Document) (id : NodeId) (f : Node → Node) :
    (d.modify id f).serial = d.serial := by
  rw [modify]
  split <;> rfl

@[simp] theorem modify_size (d : Document) (id : NodeId) (f : Node → Node) :
    (d.modify id f).size = d.size := by
  rw [modify]
  split
  · simp [size]
  · rfl

@[simp] theorem modify_root (d : Document) (id : NodeId) (f : Node → Node) :
    (d.modify id f).root = d.root := by simp [root, handle]

theorem node?_modify (d : Document) (id other : NodeId) (f : Node → Node) :
    (d.modify id f).node? other = if other = id then (d.node? id).map f else d.node? other := by
  by_cases hid : id.document = d.serial
  · have hmodify : d.modify id f = { d with nodes := d.nodes.modify id.index f } := by
      rw [modify, if_pos hid]
    rw [hmodify]
    by_cases hother : other.document = d.serial
    · simp only [node?, hid, hother, if_true, Array.getElem?_modify]
      have heq : id.index = other.index ↔ other = id := by
        rw [NodeId.ext_iff, hid, hother]
        simp [eq_comm]
      by_cases hsame : other = id
      · rw [if_pos (heq.2 hsame), if_pos hsame, hsame]
      · rw [if_neg (fun h ↦ hsame (heq.1 h)), if_neg hsame]
    · have hne : other ≠ id := fun h ↦ hother (h ▸ hid)
      simp [node?, hother, hne]
  · have hmodify : d.modify id f = d := by rw [modify, if_neg hid]
    rw [hmodify]
    split
    · next h =>
      subst h
      simp [node?, hid]
    · rfl

theorem node?_modify_self (d : Document) (id : NodeId) (f : Node → Node) :
    (d.modify id f).node? id = (d.node? id).map f := by rw [node?_modify, if_pos rfl]

theorem node?_modify_of_ne {other : NodeId} (h : other ≠ id) (f : Node → Node) :
    (d.modify id f).node? other = d.node? other := by rw [node?_modify, if_neg h]

theorem modify_congr {f g : Node → Node} (h : ∀ n, d.node? id = some n → f n = g n) : d.modify id f = d.modify id g := by
  rw [modify, modify]
  split
  · next hid =>
    have hnodes : d.nodes.modify id.index f = d.nodes.modify id.index g := by
      ext i hi hi'
      · simp
      · rw [Array.getElem_modify, Array.getElem_modify]
        split
        · next heq =>
          subst heq
          exact h _ (by rw [node?, if_pos hid, Array.getElem?_eq_getElem])
        · rfl
    rw [hnodes]
  · rfl

theorem modify_of_fixed {f : Node → Node} (h : ∀ n, d.node? id = some n → f n = n) : d.modify id f = d := by
  rw [modify_congr (g := fun n ↦ n) h, modify]
  split
  · have hnodes : d.nodes.modify id.index (fun n ↦ n) = d.nodes := by ext <;> simp [Array.getElem_modify]
    rw [hnodes]
  · rfl

def fresh (d : Document) : NodeId := d.handle d.size

@[simp] theorem create_fst (d : Document) (data : NodeData) : (d.create data).1 = d.fresh := rfl

@[simp] theorem create_serial (d : Document) (data : NodeData) : (d.create data).2.serial = d.serial := rfl

@[simp] theorem create_size (d : Document) (data : NodeData) : (d.create data).2.size = d.size + 1 := by
  simp [create, size]

@[simp] theorem create_root (d : Document) (data : NodeData) : (d.create data).2.root = d.root := rfl

theorem node?_create (d : Document) (data : NodeData) (id : NodeId) :
    (d.create data).2.node? id = if id = d.fresh then some ⟨data, none, []⟩ else d.node? id := by
  by_cases hid : id.document = d.serial
  · have hcreated : (d.create data).2.node? id = (d.nodes.push ⟨data, none, []⟩)[id.index]? := if_pos hid
    have hbefore : d.node? id = d.nodes[id.index]? := if_pos hid
    by_cases hindex : id.index = d.nodes.size
    · have heq : id = d.fresh := NodeId.ext hid hindex
      rw [hcreated, if_pos heq, hindex, Array.getElem?_push_size]
    · have hne : id ≠ d.fresh := fun h ↦ hindex (congrArg NodeId.index h)
      rw [hcreated, if_neg hne, hbefore, Array.getElem?_push, if_neg hindex]
  · have hne : id ≠ d.fresh := fun h ↦ hid (congrArg NodeId.document h)
    have hcreated : (d.create data).2.node? id = none := if_neg hid
    have hbefore : d.node? id = none := if_neg hid
    rw [hcreated, if_neg hne, hbefore]

theorem index_lt_size {n : Node} (h : d.node? id = some n) : id.index < d.size := by
  rw [node?] at h
  split at h
  · exact (Array.getElem?_eq_some_iff.1 h).1
  · contradiction

theorem document_eq {n : Node} (h : d.node? id = some n) : id.document = d.serial := by
  rw [node?] at h
  split at h
  · assumption
  · contradiction

theorem node?_fresh (d : Document) : d.node? d.fresh = none := by
  cases h : d.node? d.fresh with
  | none => rfl
  | some n => exact absurd (index_lt_size h) (lt_irrefl d.size)

theorem ne_fresh {n : Node} (h : d.node? id = some n) : id ≠ d.fresh := by
  rintro rfl
  rw [node?_fresh] at h
  contradiction

theorem check_ok {node : Node} (h : d.node? id = some node) : d.check id = .ok () := by simp [check, h]

theorem parent?_of_node {node : Node} (h : d.node? id = some node) : d.parent? id = node.parent? := by
  simp [parent?, h]

theorem parent?_eq_of_node?_eq (h : e.node? id = d.node? id) : e.parent? id = d.parent? id := by
  rw [parent?, parent?, h]

theorem children_eq_of_node?_eq (h : e.node? id = d.node? id) : e.children id = d.children id := by
  rw [children, children, h]

/-- Different nodes that a document knows are at most as many as its arena has places. -/
theorem length_le_of_known {ids : List NodeId} (hnodup : ids.Nodup) (hknown : ∀ id ∈ ids, d.node? id ≠ none) :
    ids.length ≤ d.size := by
  have hnode : ∀ id ∈ ids, ∃ n, d.node? id = some n := fun id hid ↦ Option.ne_none_iff_exists'.1 (hknown id hid)
  have hindices : (ids.map NodeId.index).Nodup := by
    refine List.Nodup.map_on (fun a ha c hc heq ↦ ?_) hnodup
    obtain ⟨_, hna⟩ := hnode a ha
    obtain ⟨_, hnc⟩ := hnode c hc
    exact NodeId.ext ((document_eq hna).trans (document_eq hnc).symm) heq
  have hsubset : (ids.map NodeId.index) ⊆ List.range d.size := by
    intro i hi
    obtain ⟨id, hid, rfl⟩ := List.mem_map.1 hi
    obtain ⟨_, hn⟩ := hnode id hid
    exact List.mem_range.2 (index_lt_size hn)
  have := (hindices.subperm hsubset).length_le
  simpa using this

/-! ### Growth -/

/-- A later state of a document: no node of the earlier one is lost from the arena. -/
structure Grows (d e : Document) : Prop where
  serial : e.serial = d.serial
  known : ∀ id, d.node? id ≠ none → e.node? id ≠ none

namespace Grows

theorem refl (d : Document) : Grows d d := ⟨rfl, fun _ h ↦ h⟩

theorem trans {f : Document} (h : Grows d e) (k : Grows e f) : Grows d f :=
  ⟨k.serial.trans h.serial, fun id hid ↦ k.known id (h.known id hid)⟩

theorem root (h : Grows d e) : e.root = d.root := by simp [Document.root, handle, h.serial]

theorem unknown (h : Grows d e) (hid : e.node? id = none) : d.node? id = none := by
  by_contra hne
  exact h.known id hne hid

theorem modify (d : Document) (id : NodeId) (f : Node → Node) : Grows d (d.modify id f) where
  serial := modify_serial d id f
  known other h := by
    rw [node?_modify]
    split
    · next heq => simpa [heq] using h
    · exact h

theorem create (d : Document) (data : NodeData) : Grows d (d.create data).2 where
  serial := rfl
  known other h := by
    rw [node?_create]
    split
    · simp
    · exact h

end Grows

/-! ### Changes to several nodes -/

theorem node?_link {parent id : NodeId} {n : Node} (hn : d.node? parent = some n) (hne : id ≠ parent)
    (children : List NodeId) (other : NodeId) : (d.link parent id children).node? other =
      if other = parent then some { n with children }
      else if other = id then (d.node? id).map fun n ↦ { n with parent? := some parent }
      else d.node? other := by
  rw [link, node?_modify, node?_modify_of_ne hne.symm, hn]
  split
  · rfl
  · rw [node?_modify]

theorem node?_release {parent id : NodeId} {n m : Node} (hn : d.node? parent = some n) (hm : d.node? id = some m)
    (hne : id ≠ parent) (other : NodeId) :
    ((d.modify parent fun n ↦ { n with children := n.children.filter (· ≠ id) }).modify id fun n ↦
      { n with parent? := none }).node? other =
      if other = id then some { m with parent? := none }
      else if other = parent then some { n with children := n.children.filter (· ≠ id) }
      else d.node? other := by
  rw [node?_modify, node?_modify_of_ne hne, hm]
  split
  · rfl
  · rw [node?_modify, hn]
    rfl

theorem node?_appendNew {parent child : NodeId} (hne : child ≠ parent) (id : NodeId) :
    (d.appendNew parent child).node? id =
      if id = parent then (d.node? parent).map fun n ↦ { n with children := n.children ++ [child] }
      else if id = child then (d.node? child).map fun n ↦ { n with parent? := some parent }
      else d.node? id := by
  rw [appendNew, node?_modify, node?_modify_of_ne hne.symm]
  split
  · rfl
  · rw [node?_modify]

theorem appendNew_grows (d : Document) (parent child : NodeId) : Grows d (d.appendNew parent child) :=
  (Grows.modify _ _ _).trans (Grows.modify _ _ _)

theorem node?_foldl_modify {f : Node → Node} : ∀ (ids : List NodeId) (d : Document), ids.Nodup → ∀ id,
    (ids.foldl (fun d c ↦ d.modify c f) d).node? id = if id ∈ ids then (d.node? id).map f else d.node? id := by
  intro ids
  induction ids with
  | nil => simp
  | cons c cs ih =>
    intro d hnodup id
    obtain ⟨hc, hcs⟩ := List.nodup_cons.1 hnodup
    rw [List.foldl_cons, ih _ hcs id]
    by_cases hid : id = c
    · subst hid
      rw [if_neg hc, node?_modify_self, if_pos (List.mem_cons_self ..)]
    · rw [node?_modify_of_ne hid]
      simp [hid]

theorem foldl_modify_grows {f : Node → Node} : ∀ (ids : List NodeId) (d : Document),
    Grows d (ids.foldl (fun d c ↦ d.modify c f) d) := by
  intro ids
  induction ids with
  | nil => exact Grows.refl
  | cons c cs ih => exact fun d ↦ (Grows.modify d c f).trans (ih _)

end Document

end Stencil
