import Stencil.Command.Element
import Stencil.Proofs.Numbering.Edit
import Stencil.Run.Scan
import Stencil.Run.Area
/-!
Placeholders, areas and texts of documents under another number.
-/

namespace Stencil

variable {k : ℕ}

namespace Document

/-! ### Plain text -/

theorem addParagraph_shift (d : Document) (line : List Char) : (d.shift k).addParagraph line = (d.addParagraph line).shift k := by
  simp [addParagraph, createElement, createText]

theorem ofText_shift (serial : ℕ) (text : String) : ofText (serial + k) text = (ofText serial text).shift k := by
  have hlines : ∀ (lines : List (List Char)) (d : Document),
      lines.foldl addParagraph (d.shift k) = (lines.foldl addParagraph d).shift k := fun lines ↦ by
    induction lines with
    | nil => exact fun _ ↦ rfl
    | cons line lines ih => simp [addParagraph_shift, ih]
  rw [ofText, ofRoot_shift, hlines, ofText]

theorem inlineText_shift (d : Document) (n : ℕ) (id : NodeId) : (d.shift k).inlineText n (id.shift k) = d.inlineText n id := by
  induction n generalizing id with
  | zero =>
    rw [inlineText, inlineText, node?_shift]
    rcases d.node? id with _ | ⟨_ | _, _, _⟩ <;> rfl
  | succ n ih =>
    rw [inlineText, inlineText, node?_shift]
    rcases d.node? id with _ | ⟨⟨tag, attrs⟩ | s, parent?, children⟩
    · rfl
    · simp [Node.shift, Function.comp_def, ih]
    · rfl

theorem toText_shift (d : Document) : (d.shift k).toText = d.toText := by
  simp [toText, textLines, Function.comp_def, inlineText_shift]

/-! ### Placeholders -/

theorem addTextAfter_shift (d : Document) (ref : NodeId) (s : String) :
    (d.shift k).addTextAfter (ref.shift k) s = Prod.map (.shift k) (exceptMap (.shift k) (.shift k)) (d.addTextAfter ref s) := by
  simp only [addTextAfter, createText, create_shift, insertAfter_shift]
  cases (d.create (.text s)).2.insertAfter ref (d.create (.text s)).1 <;> rfl

theorem splitAround_shift (d : Document) (id : NodeId) (before marker after : String) :
    (d.shift k).splitAround (id.shift k) before marker after =
      Prod.map (.shift k) (exceptMap (.shift k) (.shift k)) (d.splitAround id before marker after) := by
  have hplaced : (if before.isEmpty then ((d.shift k).putText (id.shift k) marker, .ok (id.shift k))
      else ((d.shift k).putText (id.shift k) before).addTextAfter (id.shift k) marker : Document × Except DocumentError NodeId) =
      Prod.map (.shift k) (exceptMap (.shift k) (.shift k)) (if before.isEmpty then (d.putText id marker, .ok id)
        else (d.putText id before).addTextAfter id marker) := by
    split
    · simp
    · simp [addTextAfter_shift]
  simp only [splitAround, hplaced]
  rcases (if before.isEmpty then (d.putText id marker, .ok id) else (d.putText id before).addTextAfter id marker :
    Document × Except DocumentError NodeId) with ⟨e, reason | place⟩
  · rfl
  simp only [Prod.map, exceptMap_ok]
  split
  · rfl
  · rw [addTextAfter_shift]
    rcases e.addTextAfter place after with ⟨_, _ | _⟩ <;> rfl

end Document

def Search.shift (k : ℕ) (s : Search) : Search :=
  ⟨s.document.shift k, s.split?.map (Prod.map (.shift k) id), exceptMap (.shift k) (Option.map (.shift k)) s.result⟩

def Continuation.shift (k : ℕ) : Continuation → Continuation
  | proceed => proceed
  | .at node => .at (node.shift k)
  | stop => stop

def Area.shift (k : ℕ) (a : Area) : Area :=
  ⟨a.ancestor.shift k, a.opening.shift k, a.closing.shift k, a.first.shift k, a.last.shift k, a.range⟩

namespace Document

theorem isolate_shift (t : Delimiters) (d : Document) (id : NodeId) :
    (d.shift k).isolate t (id.shift k) = (d.isolate t id).shift k := by
  rw [isolate, isolate, text?_shift]
  cases (d.text? id).bind fun s ↦ t.cut? s.toList with
  | none => rfl
  | some cut =>
    dsimp only
    split
    · rfl
    · rw [splitAround_shift]
      rcases d.splitAround id _ _ _ with ⟨e, _ | _⟩ <;> rfl

theorem searchFrom_shift (t : Delimiters) (n : ℕ) (d : Document) (id : NodeId) :
    searchFrom t n (d.shift k) (id.shift k) = (searchFrom t n d id).shift k := by
  induction n generalizing d id with
  | zero => rfl
  | succ n ih =>
    simp only [searchFrom, isolate_shift]
    rcases hs : d.isolate t id with ⟨e, split?, reason | _ | found⟩
    · rfl
    · simp only [Search.shift, exceptMap_ok, Option.map_none, nextInOrder?_shift]
      cases d.nextInOrder? id with
      | none => rfl
      | some next => exact ih d next
    · rfl

theorem search_shift (t : Delimiters) (d : Document) (id : NodeId) :
    (d.shift k).search t (id.shift k) = (d.search t id).shift k := by
  rw [search, search, size_shift, searchFrom_shift]

@[simp] theorem payload?_shift (t : Delimiters) (d : Document) (id : NodeId) :
    (d.shift k).payload? t (id.shift k) = d.payload? t id := by
  rw [payload?, payload?, text?_shift]

@[simp] theorem blockOf_shift (d : Document) (id : NodeId) : (d.shift k).blockOf (id.shift k) = (d.blockOf id).shift k := by
  simp only [blockOf, ancestors_shift, ← List.map_cons, List.find?_map, Function.comp_def, tag?_shift]
  cases (id :: d.ancestors id).find? fun a ↦ d.tag? a == some paragraphTag <;> rfl

@[simp] theorem isBlankText_shift (d : Document) (id : NodeId) : (d.shift k).isBlankText (id.shift k) = d.isBlankText id := by
  rw [isBlankText, isBlankText, text?_shift]

@[simp] theorem removalRoot_shift (d : Document) (id : NodeId) :
    (d.shift k).removalRoot (id.shift k) = (d.removalRoot id).shift k := by
  have hrest : (((d.children (d.blockOf id)).map (.shift k)).filter (· ≠ id.shift k)).all (d.shift k).isBlankText =
      ((d.children (d.blockOf id)).filter (· ≠ id)).all d.isBlankText := by
    simp [List.filter_map, Function.comp_def]
  simp only [removalRoot, blockOf_shift, NodeId.shift_inj, isAttached_shift, children_shift, hrest]
  split
  · rfl
  split <;> rfl

theorem deletePlaceholder_shift (d : Document) (id : NodeId) :
    (d.shift k).deletePlaceholder (id.shift k) = exceptMap (.shift k) (.shift k) (d.deletePlaceholder id) := by
  rw [deletePlaceholder, removalRoot_shift, detach_shift, deletePlaceholder]

theorem setPlaceholder_shift (t : Delimiters) (d : Document) (id : NodeId) (cs : Commands) :
    (d.shift k).setPlaceholder t (id.shift k) cs = exceptMap (.shift k) (.shift k) (d.setPlaceholder t id cs) :=
  setText_shift d id _

theorem insertImage_shift (d : Document) (id : NodeId) (image : Image) :
    (d.shift k).insertImage (id.shift k) image =
      exceptMap (.shift k) (Prod.map (.shift k) (.shift k)) (d.insertImage id image) := by
  rw [insertImage, insertImage, parent?_shift]
  cases d.parent? id with
  | none => rfl
  | some parent =>
    simp only [Option.map_some, createElement, create_shift, setAttr_shift]
    exact exceptMap_bind (replace_shift _ id _) fun _ ↦ rfl

theorem named?_shift (d : Document) (name : String) : (d.shift k).named? name = (d.named? name).map (.shift k) := by
  simp [named?, List.find?_map]

end Document

theorem Continuation.ofNode_shift (d : Document) (node? : Option NodeId) (behind : Bool) :
    ofNode (d.shift k) (node?.map (.shift k)) behind = (ofNode d node? behind).shift k := by
  cases node? with
  | none => cases behind <;> rfl
  | some node =>
    cases behind with
    | false => rfl
    | true =>
      simp only [ofNode, if_true, Option.map_some, Option.bind_some, Document.nextAfter?_shift]
      cases d.nextAfter? node <;> rfl

theorem Continuation.ofNode_some_shift (d : Document) (node : NodeId) (behind : Bool) :
    ofNode (d.shift k) (some (node.shift k)) behind = (ofNode d (some node) behind).shift k := ofNode_shift d (some node) behind

theorem Selection.placeholderBound_shift (d : Document) : placeholderBound (d.shift k) = placeholderBound d := by
  rw [placeholderBound, placeholderBound, Document.shift, Array.foldl_map]
  rfl

/-! ### Areas -/

namespace Area

theorem ancestorOf_shift (d : Document) (opening closing : NodeId) :
    ancestorOf (d.shift k) (opening.shift k) (closing.shift k) = exceptMap id (.shift k) (ancestorOf d opening closing) := by
  simp only [ancestorOf, NodeId.shift_inj, Document.commonAncestor?_shift]
  split
  · rfl
  cases d.commonAncestor? opening closing with
  | none => rfl
  | some a =>
    simp only [Option.map_some, Document.isAttached_shift, NodeId.shift_inj]
    split
    · rfl
    split <;> rfl

theorem resolve_shift (d : Document) (opening closing : NodeId) :
    resolve (d.shift k) (opening.shift k) (closing.shift k) = exceptMap id (.shift k) (resolve d opening closing) := by
  refine exceptMap_bind (ancestorOf_shift d opening closing) fun ancestor ↦ ?_
  simp only [Document.ancestorChild?_shift]
  cases d.ancestorChild? ancestor opening with
  | none => rfl
  | some first =>
    cases d.ancestorChild? ancestor closing with
    | none => rfl
    | some last =>
      simp only [Option.map_some, Document.indexInParent?_shift]
      cases d.indexInParent? first with
      | none => rfl
      | some start =>
        cases d.indexInParent? last with
        | none => rfl
        | some stop =>
          dsimp only
          split <;> rfl

theorem nodesIn_shift (a : Area) (d : Document) (range : IndexRange) :
    (a.shift k).nodesIn (d.shift k) range = (a.nodesIn d range).map (.shift k) := by
  simp [nodesIn, shift, List.map_take, List.map_drop]

theorem nodes_shift (a : Area) (d : Document) : (a.shift k).nodes (d.shift k) = (a.nodes d).map (.shift k) :=
  nodesIn_shift a d a.range

theorem pathBelow?_shift (d : Document) (top : NodeId) (n : ℕ) (id : NodeId) (below : List ℕ) :
    pathBelow? (d.shift k) (top.shift k) n (id.shift k) below = pathBelow? d top n id below := by
  induction n generalizing id below with
  | zero => rfl
  | succ n ih =>
    simp only [pathBelow?, NodeId.shift_inj, Document.indexInParent?_shift, Document.parent?_shift]
    cases d.parent? id with
    | none => rfl
    | some p => simp only [Option.map_some, Option.bind_some, ih]

theorem followDown?_shift (d : Document) (id : NodeId) (path : List ℕ) :
    followDown? (d.shift k) (id.shift k) path = (followDown? d id path).map (.shift k) := by
  induction path generalizing id with
  | nil => rfl
  | cons i path ih =>
    simp only [followDown?, Document.children_shift, List.getElem?_map]
    cases (d.children id)[i]? with
    | none => rfl
    | some c => exact ih c

end Area

/-! ### The way of a scan -/

def Placeholder.shift (k : ℕ) (p : Placeholder) : Placeholder := ⟨p.node.shift k, p.marker, p.successor?.map (.shift k)⟩

theorem Scanner.resumption_shift (d : Document) (p : Placeholder) (next : Continuation) :
    resumption (d.shift k) (p.shift k) (next.shift k) = (resumption d p next).map (.shift k) := by
  have hsuccessor : (p.successor?.map (.shift k)).filter (d.shift k).isAttached = (p.successor?.filter d.isAttached).map (.shift k) := by
    cases p.successor? with
    | none => rfl
    | some id => by_cases h : d.isAttached id = true <;> simp [Option.filter, h]
  cases next with
  | stop => rfl
  | proceed =>
    simp only [resumption, Continuation.shift, Placeholder.shift, Document.isAttached_shift, Document.nextAfter?_shift, hsuccessor]
    split <;> rfl
  | «at» target =>
    simp only [resumption, Continuation.shift, Placeholder.shift, Document.isAttached_shift, hsuccessor]
    split <;> rfl

end Stencil
