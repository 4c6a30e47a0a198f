import Stencil.Run.Edit
/-!
Areas between two markers. An area consists of children of the lowest node above both markers, from
the one that holds the first marker to the one that holds the last. Before an area is deleted or
copied, what shares these children with a marker but lies outside is split off.
-/

namespace Stencil

/-- An area: the node whose children it consists of, its markers, the children that hold them, and
the positions of these. -/
structure Area where
  ancestor : NodeId
  opening : NodeId
  closing : NodeId
  first : NodeId
  last : NodeId
  range : IndexRange
  deriving DecidableEq, Repr

namespace Area

/-- The node whose children an area between two nodes consists of. -/
def ancestorOf (d : Document) (opening closing : NodeId) : Except AreaCause NodeId :=
  if opening = closing then .error .sameNode
  else match d.commonAncestor? opening closing with
    | none => .error .noCommonAncestor
    | some a =>
      if d.isAttached a = false then .error .noCommonAncestor
      else if a = opening ∨ a = closing then .error .nested
      else .ok a

def resolve (d : Document) (opening closing : NodeId) : Except AreaCause Area := do
  let ancestor ← ancestorOf d opening closing
  match d.ancestorChild? ancestor opening, d.ancestorChild? ancestor closing with
  | some first, some last => match d.indexInParent? first, d.indexInParent? last with
    | some start, some stop =>
      if stop < start then .error .reversed
      else .ok ⟨ancestor, opening, closing, first, last, .ofEnds start stop⟩
    | _, _ => .error .notBelow
  | _, _ => .error .notBelow

def nodesIn (d : Document) (a : Area) (range : IndexRange) : List NodeId :=
  ((d.children a.ancestor).take (range.high + 1)).drop range.low

def nodes (d : Document) (a : Area) : List NodeId := a.nodesIn d a.range

/-- The area between two nodes, with its boundaries split. Nothing is touched when there is none. -/
def isolate (opening closing : NodeId) : Run Area := do
  let area ← Run.ofExcept .area (resolve (← Run.document) opening closing)
  let before ← Run.editFor fun d ↦ d.splitOff area.ancestor opening .before
  let after ← Run.editFor fun d ↦ d.splitOff area.ancestor closing .after
  if before.isNone && after.isNone then return area
  Run.log (.splitBoundaries before.isSome after.isSome)
  Run.ofExcept .area (resolve (← Run.document) opening closing)

/-- Deletes children of an area, all of them unless positions are given. The scan goes on behind the
area, or at its last child. -/
def delete (a : Area) (range? : Option IndexRange) (behind : Bool) : Run (Option Continuation) := do
  let range := range?.getD a.range
  if !(a.range.contains range.low && a.range.contains range.high) then
    throw (.structure (.rangeOutside range a.range))
  let d ← Run.document
  let next := Continuation.ofNode d (some a.last) behind
  let doomed := a.nodesIn d range
  Run.log (.deletingArea doomed.length range)
  doomed.forM Run.detach
  return some next

/-- The positions among siblings on the way from a node down to one below it. The first argument
bounds the number of levels. -/
def pathBelow? (d : Document) (top : NodeId) : Nat → NodeId → List Nat → Option (List Nat)
  | 0, _, _ => none
  | n + 1, id, below =>
    if id = top then some below
    else (d.indexInParent? id).bind fun i ↦ (d.parent? id).bind fun p ↦ pathBelow? d top n p (i :: below)

def followDown? (d : Document) : NodeId → List Nat → Option NodeId
  | id, [] => some id
  | id, i :: is => (d.children id)[i]?.bind fun c ↦ followDown? d c is

structure CopyMarkers where
  opening : Commands
  closing : Commands

def relabel (t : Toolkit) (which : AreaEnd) (clone : NodeId) (path : List Nat) (cs : Commands) :
    Run Unit := do
  match followDown? (← Run.document) clone path with
  | none => throw (.structure (.markerMissing which))
  | some marker => Run.edit fun d ↦ d.setPlaceholder t.delimiters marker cs

/-- Where the markers stand below the first and the last child. -/
structure MarkerPaths where
  opening : List Nat
  closing : List Nat

/-- Copies children before the area, the first of them with the opening marker changed and the
last with the closing one. The nodes made. -/
def copyNodes (t : Toolkit) (a : Area) (paths : MarkerPaths) (markers : CopyMarkers) :
    Bool → List NodeId → Run (List NodeId)
  | _, [] => pure []
  | isFirst, node :: rest => do
    let clone ← Run.editFor fun d ↦ d.deepClone node
    Run.edit fun d ↦ d.insertBefore a.first clone
    if isFirst then relabel t .first clone paths.opening markers.opening
    if rest.isEmpty then relabel t .last clone paths.closing markers.closing
    let clones ← copyNodes t a paths markers false rest
    pure (clone :: clones)

/-- Copies an area for each of some markers. The nodes made. -/
def copyAll (t : Toolkit) (a : Area) (paths : MarkerPaths) (nodes : List NodeId) :
    List CopyMarkers → Run (List NodeId)
  | [] => pure []
  | markers :: rest => do
    let clones ← copyNodes t a paths markers true nodes
    let more ← copyAll t a paths nodes rest
    pure (clones ++ more)

/-- Puts copies of an area in its place, one for each of some markers, and goes on at the first of
them; without any the area is deleted. -/
def replicate (toolkit : Run Toolkit) (a : Area) (markers : List CopyMarkers) :
    Run (Option Continuation) := do
  if markers.isEmpty then a.delete none true
  else
    let t ← toolkit
    let d ← Run.document
    let nodes := a.nodes d
    match pathBelow? d a.first (d.size + 1) a.opening [], pathBelow? d a.last (d.size + 1) a.closing [] with
    | none, _ => throw (.structure (.markerLeft .first))
    | _, none => throw (.structure (.markerLeft .last))
    | some opening, some closing =>
      let clones ← copyAll t a ⟨opening, closing⟩ nodes markers
      nodes.forM Run.detach
      Run.log (.clonedArea markers.length)
      return some (Continuation.ofNode (← Run.document) clones.head? false)

end Area

end Stencil
