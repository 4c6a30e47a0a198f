import Stencil.Proofs.Numbering.Document
/-!
Edits of documents under another number. An edit is refused under one number just when it is under the
other, and what it makes of the document is the same.
-/

namespace Stencil.Document

variable {k : ℕ}

/-! ### Links -/

theorem checkInsertable_shift (d : Document) (parent node : NodeId) :
    (d.shift k).checkInsertable (parent.shift k) (node.shift k) = exceptMap (.shift k) id (d.checkInsertable parent node) := by
  refine exceptMap_bind (check_shift d parent) fun _ ↦ exceptMap_bind (check_shift d node) fun _ ↦ ?_
  simp only [root_shift, NodeId.shift_inj, parent?_shift, Option.isSome_map, contains_shift, isText_shift]
  split
  · rfl
  split
  · rfl
  split
  · rfl
  split <;> rfl

theorem link_shift (d : Document) (parent node : NodeId) (children : List NodeId) :
    (d.shift k).link (parent.shift k) (node.shift k) (children.map (.shift k)) = (d.link parent node children).shift k := by
  rw [link, link, modify_parent_shift, modify_children_shift]

theorem appendChild_shift (d : Document) (parent node : NodeId) :
    (d.shift k).appendChild (parent.shift k) (node.shift k) = exceptMap (.shift k) (.shift k) (d.appendChild parent node) := by
  refine exceptMap_bind (checkInsertable_shift d parent node) fun _ ↦ ?_
  rw [exceptMap_ok, ← link_shift]
  simp

theorem putBefore_shift (ref node : NodeId) (ids : List NodeId) :
    putBefore (ref.shift k) (node.shift k) (ids.map (.shift k)) = (putBefore ref node ids).map (.shift k) := by
  induction ids with
  | nil => rfl
  | cons c cs ih =>
    simp only [List.map_cons, putBefore, NodeId.shift_inj, ih]
    split <;> rfl

theorem putBehind_shift (ref node : NodeId) (ids : List NodeId) :
    putBehind (ref.shift k) (node.shift k) (ids.map (.shift k)) = (putBehind ref node ids).map (.shift k) := by
  induction ids with
  | nil => rfl
  | cons c cs ih =>
    simp only [List.map_cons, putBehind, NodeId.shift_inj, ih]
    split <;> rfl

theorem insertBeside_shift {place : NodeId → NodeId → List NodeId → List NodeId}
    (hplace : ∀ ref node ids, place (ref.shift k) (node.shift k) (ids.map (.shift k)) = (place ref node ids).map (.shift k))
    (d : Document) (ref node : NodeId) :
    (d.shift k).insertBeside place (ref.shift k) (node.shift k) =
      exceptMap (.shift k) (.shift k) (d.insertBeside place ref node) := by
  refine exceptMap_bind (check_shift d ref) fun _ ↦ ?_
  rw [parent?_shift]
  cases d.parent? ref with
  | none => rfl
  | some parent =>
    refine exceptMap_bind (checkInsertable_shift d parent node) fun _ ↦ ?_
    rw [exceptMap_ok, children_shift, hplace, link_shift]

theorem insertBefore_shift (d : Document) (ref node : NodeId) :
    (d.shift k).insertBefore (ref.shift k) (node.shift k) = exceptMap (.shift k) (.shift k) (d.insertBefore ref node) :=
  insertBeside_shift putBefore_shift d ref node

theorem insertAfter_shift (d : Document) (ref node : NodeId) :
    (d.shift k).insertAfter (ref.shift k) (node.shift k) = exceptMap (.shift k) (.shift k) (d.insertAfter ref node) :=
  insertBeside_shift putBehind_shift d ref node

theorem detach_shift (d : Document) (node : NodeId) :
    (d.shift k).detach (node.shift k) = exceptMap (.shift k) (.shift k) (d.detach node) := by
  refine exceptMap_bind (check_shift d node) fun _ ↦ ?_
  simp only [root_shift, NodeId.shift_inj, parent?_shift]
  split
  · rfl
  cases d.parent? node with
  | none => rfl
  | some parent =>
    have hcut : ∀ n : Node, Node.shift k { n with children := n.children.filter (· ≠ node) } =
        { n.shift k with children := (n.shift k).children.filter (· ≠ node.shift k) } := fun n ↦ by
      simp [Node.shift, List.filter_map, Function.comp_def]
    simp only [Option.map_some, exceptMap_ok]
    rw [modify_shift fun n ↦ (hcut n).symm, modify_shift (f := fun n ↦ { n with parent? := none }) fun _ ↦ rfl]

theorem replace_shift (d : Document) (old new : NodeId) :
    (d.shift k).replace (old.shift k) (new.shift k) = exceptMap (.shift k) (.shift k) (d.replace old new) :=
  exceptMap_bind (insertBefore_shift d old new) fun e ↦ detach_shift e old

theorem setText_shift (d : Document) (node : NodeId) (s : String) :
    (d.shift k).setText (node.shift k) s = exceptMap (.shift k) (.shift k) (d.setText node s) := by
  refine exceptMap_bind (check_shift d node) fun _ ↦ ?_
  simp only [isText_shift, putText_shift]
  split <;> rfl

/-! ### Copies -/

theorem copyFrom_shift (source : Document) (n : ℕ) (d : Document) (node : NodeId) :
    copyFrom (source.shift k) n (d.shift k) (node.shift k) =
      exceptMap (.shift k) (Prod.map (.shift k) (.shift k)) (copyFrom source n d node) := by
  induction n generalizing d node with
  | zero => rfl
  | succ n ih =>
    rw [copyFrom, copyFrom, node?_shift]
    cases source.node? node with
    | none => rfl
    | some original =>
      simp only [Option.map_some, Node.shift_data, create_shift, Node.shift_children]
      refine exceptMap_foldlM (f := Prod.map (NodeId.shift k) (Document.shift k)) (fun made child ↦ ?_) (d.create original.data) original.children
      exact exceptMap_bind (ih made.2 child) fun grown ↦ congrArg Except.ok (Prod.ext rfl (appendNew_shift _ _ _))

theorem deepClone_shift (d : Document) (node : NodeId) :
    (d.shift k).deepClone (node.shift k) = exceptMap (.shift k) (Prod.map (.shift k) (.shift k)) (d.deepClone node) := by
  rw [deepClone, deepClone, size_shift, copyFrom_shift]

theorem importSubtree_shift (d source : Document) (node : NodeId) :
    (d.shift k).importSubtree (source.shift k) (node.shift k) =
      exceptMap (.shift k) (Prod.map (.shift k) (.shift k)) (d.importSubtree source node) := by
  rw [importSubtree, importSubtree, size_shift, copyFrom_shift]

/-! ### Divisions -/

theorem takeWhile_shift (node : NodeId) (ids : List NodeId) :
    (ids.map (.shift k)).takeWhile (· ≠ node.shift k) = (ids.takeWhile (· ≠ node)).map (.shift k) := by
  simp [List.takeWhile_map, Function.comp_def]

theorem dropWhile_shift (node : NodeId) (ids : List NodeId) :
    (ids.map (.shift k)).dropWhile (· ≠ node.shift k) = (ids.dropWhile (· ≠ node)).map (.shift k) := by
  simp [List.dropWhile_map, Function.comp_def]

theorem Side.cut_shift (side : Side) (node : NodeId) (ids : List NodeId) :
    side.cut (node.shift k) (ids.map (.shift k)) =
      Prod.map (List.map (.shift k)) (List.map (.shift k)) (side.cut node ids) := by
  cases side <;> simp only [Side.cut, takeWhile_shift, dropWhile_shift, Prod.map, List.map_append, List.map_take, List.map_drop]

theorem Side.gather_shift (side : Side) (ids : List NodeId) (carried : Option NodeId) :
    side.gather (ids.map (.shift k)) (carried.map (.shift k)) = (side.gather ids carried).map (.shift k) := by
  cases side <;> cases carried <;> simp [Side.gather]

theorem moveOut_shift (d : Document) (parent : NodeId) (moved kept : List NodeId) :
    (d.shift k).moveOut (parent.shift k) (moved.map (.shift k)) (kept.map (.shift k)) =
      Prod.map (.shift k) (.shift k) (d.moveOut parent moved kept) := by
  have hadopt : ∀ (ids : List NodeId) (shell : NodeId) (d : Document),
      (ids.map (.shift k)).foldl (fun d c ↦ d.modify c fun n ↦ { n with parent? := some (shell.shift k) }) (d.shift k) =
        (ids.foldl (fun d c ↦ d.modify c fun n ↦ { n with parent? := some shell }) d).shift k := fun ids shell ↦ by
    induction ids with
    | nil => exact fun _ ↦ rfl
    | cons c ids ih =>
      intro d
      simp only [List.map_cons, List.foldl_cons]
      rw [modify_parent_shift, ih]
  simp only [moveOut, data?_shift, modify_children_shift, create_shift, hadopt, Prod.map]

theorem carry_shift (side : Side) (top : NodeId) (n : ℕ) (d : Document) (node : NodeId) (carried : Option NodeId) :
    carry side (top.shift k) n (d.shift k) (node.shift k) (carried.map (.shift k)) =
      Prod.map (Option.map (.shift k)) (.shift k) (carry side top n d node carried) := by
  induction n generalizing d node carried with
  | zero => rfl
  | succ n ih =>
    simp only [carry, NodeId.shift_inj, parent?_shift]
    split
    · rfl
    cases d.parent? node with
    | none => rfl
    | some parent =>
      simp only [Option.map_some, children_shift, Side.cut_shift, Prod.map, Side.gather_shift]
      cases side.gather (side.cut node (d.children parent)).1 carried with
      | nil => exact ih d parent none
      | cons c cs =>
        simp only [List.map_cons]
        rw [← List.map_cons, moveOut_shift]
        exact ih _ parent (some _)

theorem splitOff_shift (d : Document) (ancestor node : NodeId) (side : Side) :
    (d.shift k).splitOff (ancestor.shift k) (node.shift k) side =
      exceptMap (.shift k) (Prod.map (Option.map (.shift k)) (.shift k)) (d.splitOff ancestor node side) := by
  refine exceptMap_bind (check_shift d ancestor) fun _ ↦ exceptMap_bind (check_shift d node) fun _ ↦ ?_
  rw [ancestorChild?_shift]
  cases d.ancestorChild? ancestor node with
  | none => rfl
  | some top =>
    have hcarry : carry side (top.shift k) d.size (d.shift k) (node.shift k) none =
        Prod.map (Option.map (.shift k)) (.shift k) (carry side top d.size d node none) := carry_shift side top d.size d node none
    simp only [Option.map_some, size_shift, hcarry]
    rcases carry side top d.size d node none with ⟨_ | part, e⟩
    · rfl
    cases side with
    | before => exact exceptMap_bind (insertBefore_shift e top part) fun (_ : Document) ↦ rfl
    | after => exact exceptMap_bind (insertAfter_shift e top part) fun (_ : Document) ↦ rfl

end Stencil.Document
