import Mathlib.Tactic
import Stencil.Document.Edit
/-!
Documents under another number. Handles name the number of their document; nothing else in a document
depends on it, so that the same document under a higher number shows the same tree.
-/

namespace Stencil

/-! ### Attempts -/

section

variable {ε ε' α α' β β' : Type} {g : ε → ε'} {f : α → α'} {f' : β → β'}

/-- An attempt with another name for its error and another for its result. -/
def exceptMap (g : ε → ε') (f : α → α') : Except ε α → Except ε' α'
  | .ok a => .ok (f a)
  | .error e => .error (g e)

@[simp] theorem exceptMap_ok (a : α) : exceptMap g f (.ok a) = .ok (f a) := rfl

@[simp] theorem exceptMap_error (e : ε) : exceptMap g f (.error e) = .error (g e) := rfl

theorem exceptMap_bind {x : Except ε α} {x' : Except ε' α'} {h : α → Except ε β} {h' : α' → Except ε' β'}
    (hx : x' = exceptMap g f x) (hh : ∀ a, h' (f a) = exceptMap g f' (h a)) : (x' >>= h') = exceptMap g f' (x >>= h) := by
  subst hx
  cases x with
  | ok a => exact hh a
  | error e => rfl

theorem exceptMap_foldlM {e : β → β'} {step : α → β → Except ε α} {step' : α' → β' → Except ε' α'}
    (hstep : ∀ a b, step' (f a) (e b) = exceptMap g f (step a b)) (a : α) (bs : List β) :
    (bs.map e).foldlM step' (f a) = exceptMap g f (bs.foldlM step a) := by
  induction bs generalizing a with
  | nil => rfl
  | cons b bs ih =>
    rw [List.map_cons, List.foldlM_cons, List.foldlM_cons]
    exact exceptMap_bind (hstep a b) ih

end

/-! ### Handles, nodes and documents -/

variable {k : ℕ}

/-- The handle of the same place in a document whose number is `k` higher. -/
def NodeId.shift (k : ℕ) (id : NodeId) : NodeId := ⟨id.document + k, id.index⟩

@[simp] theorem NodeId.shift_inj {id id' : NodeId} : id.shift k = id'.shift k ↔ id = id' := by
  obtain ⟨document, index⟩ := id
  obtain ⟨document', index'⟩ := id'
  simp [shift]

@[simp] theorem NodeId.shift_beq (id id' : NodeId) : (id.shift k == id'.shift k) = (id == id') := by
  by_cases h : id = id' <;> simp [h]

@[simp] theorem NodeId.shift_index (id : NodeId) : (id.shift k).index = id.index := rfl

@[simp] theorem NodeId.shift_document (id : NodeId) : (id.shift k).document = id.document + k := rfl

def Node.shift (k : ℕ) (n : Node) : Node :=
  { n with parent? := n.parent?.map (.shift k), children := n.children.map (.shift k) }

@[simp] theorem Node.shift_data (n : Node) : (n.shift k).data = n.data := rfl

@[simp] theorem Node.shift_parent? (n : Node) : (n.shift k).parent? = n.parent?.map (.shift k) := rfl

@[simp] theorem Node.shift_children (n : Node) : (n.shift k).children = n.children.map (.shift k) := rfl

def Document.shift (k : ℕ) (d : Document) : Document := ⟨d.serial + k, d.nodes.map (.shift k)⟩

def DocumentError.shift (k : ℕ) : DocumentError → DocumentError
  | rootNode => rootNode
  | alreadyAttached id => alreadyAttached (id.shift k)
  | detached id => detached (id.shift k)
  | cycle parent node => cycle (parent.shift k) (node.shift k)
  | foreign id => foreign (id.shift k)
  | notText id => notText (id.shift k)
  | notPlaceholder id => notPlaceholder (id.shift k)
  | textParent => textParent
  | notBelow node ancestor => notBelow (node.shift k) (ancestor.shift k)
  | refused reason => refused reason

namespace Document

/-! ### Nodes -/

@[simp] theorem shift_serial (d : Document) : (d.shift k).serial = d.serial + k := rfl

@[simp] theorem handle_shift (d : Document) (i : ℕ) : (d.shift k).handle i = (d.handle i).shift k := rfl

@[simp] theorem root_shift (d : Document) : (d.shift k).root = d.root.shift k := rfl

@[simp] theorem size_shift (d : Document) : (d.shift k).size = d.size := by simp [size, shift]

@[simp] theorem node?_shift (d : Document) (id : NodeId) : (d.shift k).node? (id.shift k) = (d.node? id).map (.shift k) := by
  simp only [node?, NodeId.shift_document, shift_serial, Nat.add_right_cancel_iff]
  split <;> simp [shift]

@[simp] theorem data?_shift (d : Document) (id : NodeId) : (d.shift k).data? (id.shift k) = d.data? id := by
  simp [data?, Function.comp_def]

@[simp] theorem tag?_shift (d : Document) (id : NodeId) : (d.shift k).tag? (id.shift k) = d.tag? id := by simp [tag?]

@[simp] theorem attrs_shift (d : Document) (id : NodeId) : (d.shift k).attrs (id.shift k) = d.attrs id := by simp [attrs]

@[simp] theorem attr?_shift (d : Document) (id : NodeId) (name : String) : (d.shift k).attr? (id.shift k) name = d.attr? id name := by
  simp [attr?]

@[simp] theorem text?_shift (d : Document) (id : NodeId) : (d.shift k).text? (id.shift k) = d.text? id := by simp [text?]

@[simp] theorem isText_shift (d : Document) (id : NodeId) : (d.shift k).isText (id.shift k) = d.isText id := by simp [isText]

@[simp] theorem parent?_shift (d : Document) (id : NodeId) : (d.shift k).parent? (id.shift k) = (d.parent? id).map (.shift k) := by
  rw [parent?, parent?, node?_shift]
  cases d.node? id <;> rfl

@[simp] theorem children_shift (d : Document) (id : NodeId) : (d.shift k).children (id.shift k) = (d.children id).map (.shift k) := by
  rw [children, children, node?_shift]
  cases d.node? id <;> rfl

theorem check_shift (d : Document) (node : NodeId) :
    (d.shift k).check (node.shift k) = exceptMap (.shift k) id (d.check node) := by
  simp only [check, node?_shift, Option.isSome_map]
  split <;> rfl

theorem modify_shift {f f' : Node → Node} (hf : ∀ n, f' (n.shift k) = (f n).shift k) (d : Document) (id : NodeId) :
    (d.shift k).modify (id.shift k) f' = (d.modify id f).shift k := by
  simp only [modify, NodeId.shift_document, shift_serial, Nat.add_right_cancel_iff, NodeId.shift_index]
  split
  · simp only [shift, Document.mk.injEq, true_and]
    refine Array.ext (by simp) fun i h h' ↦ ?_
    simp only [Array.getElem_modify, Array.getElem_map]
    split <;> simp [hf]
  · rfl

theorem modify_parent_shift (d : Document) (id parent : NodeId) :
    (d.shift k).modify (id.shift k) (fun n ↦ { n with parent? := some (parent.shift k) }) =
      (d.modify id fun n ↦ { n with parent? := some parent }).shift k :=
  modify_shift (f := fun n ↦ { n with parent? := some parent }) (fun _ ↦ rfl) d id

theorem modify_children_shift (d : Document) (id : NodeId) (children : List NodeId) :
    (d.shift k).modify (id.shift k) (fun n ↦ { n with children := children.map (.shift k) }) =
      (d.modify id fun n ↦ { n with children }).shift k :=
  modify_shift (f := fun n ↦ { n with children }) (fun _ ↦ rfl) d id

@[simp] theorem create_shift (d : Document) (data : NodeData) :
    (d.shift k).create data = ((d.create data).1.shift k, (d.create data).2.shift k) := by
  simp [create, shift, handle, NodeId.shift, Node.shift]

@[simp] theorem appendNew_shift (d : Document) (parent child : NodeId) :
    (d.shift k).appendNew (parent.shift k) (child.shift k) = (d.appendNew parent child).shift k := by
  rw [appendNew, appendNew, modify_parent_shift,
    modify_shift (f := fun n ↦ { n with children := n.children ++ [child] }) fun n ↦ by simp [Node.shift]]

@[simp] theorem putText_shift (d : Document) (id : NodeId) (s : String) : (d.shift k).putText (id.shift k) s = (d.putText id s).shift k :=
  modify_shift (f := fun n ↦ { n with data := .text s }) (fun _ ↦ rfl) d id

@[simp] theorem setAttr_shift (d : Document) (id : NodeId) (name value : String) :
    (d.shift k).setAttr (id.shift k) name value = (d.setAttr id name value).shift k := by
  refine modify_shift (fun n ↦ ?_) d id
  obtain ⟨data, parent?, children⟩ := n
  cases data <;> rfl

theorem ofRoot_shift (serial : ℕ) (data : NodeData) : ofRoot (serial + k) data = (ofRoot serial data).shift k := by
  simp [ofRoot, shift, Node.shift]

/-! ### Order -/

@[simp] theorem following?_shift (id : NodeId) (ids : List NodeId) :
    following? (id.shift k) (ids.map (.shift k)) = (following? id ids).map (.shift k) := by
  induction ids with
  | nil => rfl
  | cons c cs ih =>
    simp only [List.map_cons, following?, NodeId.shift_inj, ih, List.head?_map]
    split <;> rfl

@[simp] theorem firstChild?_shift (d : Document) (id : NodeId) :
    (d.shift k).firstChild? (id.shift k) = (d.firstChild? id).map (.shift k) := by
  simp [firstChild?]

@[simp] theorem indexInParent?_shift (d : Document) (id : NodeId) : (d.shift k).indexInParent? (id.shift k) = d.indexInParent? id := by
  rw [indexInParent?, indexInParent?, parent?_shift]
  cases d.parent? id with
  | none => rfl
  | some p => simp [List.findIdx?_map, Function.comp_def]

@[simp] theorem nextSibling?_shift (d : Document) (id : NodeId) :
    (d.shift k).nextSibling? (id.shift k) = (d.nextSibling? id).map (.shift k) := by
  rw [nextSibling?, nextSibling?, parent?_shift]
  cases d.parent? id with
  | none => rfl
  | some p => simp

theorem climb_shift (d : Document) (n : ℕ) (id : NodeId) : (d.shift k).climb n (id.shift k) = (d.climb n id).map (.shift k) := by
  induction n generalizing id with
  | zero => rfl
  | succ n ih =>
    rw [climb, climb, parent?_shift]
    cases d.parent? id with
    | none => rfl
    | some p => simp [ih]

@[simp] theorem ancestors_shift (d : Document) (id : NodeId) : (d.shift k).ancestors (id.shift k) = (d.ancestors id).map (.shift k) := by
  rw [ancestors, size_shift, climb_shift, ancestors]

@[simp] theorem nextAfter?_shift (d : Document) (id : NodeId) : (d.shift k).nextAfter? (id.shift k) = (d.nextAfter? id).map (.shift k) := by
  rw [nextAfter?, nextAfter?, ancestors_shift, ← List.map_cons]
  induction id :: d.ancestors id with
  | nil => rfl
  | cons a as ih =>
    simp only [List.map_cons, List.findSome?_cons, nextSibling?_shift, ih]
    cases d.nextSibling? a <;> rfl

@[simp] theorem nextInOrder?_shift (d : Document) (id : NodeId) :
    (d.shift k).nextInOrder? (id.shift k) = (d.nextInOrder? id).map (.shift k) := by
  simp only [nextInOrder?, firstChild?_shift, nextAfter?_shift]
  cases d.firstChild? id <;> rfl

theorem preorder_shift (d : Document) (n : ℕ) (id : NodeId) : (d.shift k).preorder n (id.shift k) = (d.preorder n id).map (.shift k) := by
  induction n generalizing id with
  | zero => rfl
  | succ n ih => simp [preorder, ih, List.flatMap_map, List.map_flatMap]

@[simp] theorem descendants_shift (d : Document) (id : NodeId) : (d.shift k).descendants (id.shift k) = (d.descendants id).map (.shift k) := by
  rw [descendants, size_shift, preorder_shift, descendants]

@[simp] theorem textContent_shift (d : Document) (id : NodeId) : (d.shift k).textContent (id.shift k) = d.textContent id := by
  simp [textContent, List.filterMap_map]

@[simp] theorem contains_map_shift (ids : List NodeId) (id : NodeId) : (ids.map (.shift k)).contains (id.shift k) = ids.contains id := by
  induction ids with
  | nil => rfl
  | cons c cs ih => simp only [List.map_cons, List.contains_cons, NodeId.shift_beq, ih]

@[simp] theorem contains_shift (d : Document) (ancestor id : NodeId) :
    (d.shift k).contains (ancestor.shift k) (id.shift k) = d.contains ancestor id := by
  rw [contains, contains, ancestors_shift, contains_map_shift, NodeId.shift_beq]

@[simp] theorem isAttached_shift (d : Document) (id : NodeId) : (d.shift k).isAttached (id.shift k) = d.isAttached id := by
  simp only [isAttached, root_shift, ancestors_shift, List.getLast?_map, NodeId.shift_beq]
  cases (d.ancestors id).getLast? <;> simp

@[simp] theorem commonAncestor?_shift (d : Document) (a b : NodeId) :
    (d.shift k).commonAncestor? (a.shift k) (b.shift k) = (d.commonAncestor? a b).map (.shift k) := by
  simp only [commonAncestor?, ancestors_shift, ← List.map_cons, List.find?_map, Function.comp_def, contains_map_shift]

@[simp] theorem ancestorChild?_shift (d : Document) (ancestor id : NodeId) :
    (d.shift k).ancestorChild? (ancestor.shift k) (id.shift k) = (d.ancestorChild? ancestor id).map (.shift k) := by
  simp only [ancestorChild?, ancestors_shift, ← List.map_cons, List.find?_map, Function.comp_def, parent?_shift]
  congr 2
  funext c
  cases d.parent? c <;> simp

end Document

end Stencil
