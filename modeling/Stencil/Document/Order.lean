import Stencil.Document.Basic
/-!
Document order: a node comes before its children and those before its next sibling. Chains of
parents and levels of children are followed at most as often as the arena has nodes, which no path
of a tree exceeds.
-/

namespace Stencil.Document

variable (d : Document)

def following? (id : NodeId) : List NodeId → Option NodeId
  | [] => none
  | c :: cs => if c = id then cs.head? else following? id cs

def preceding? (id : NodeId) : List NodeId → Option NodeId
  | [] => none
  | [_] => none
  | b :: c :: cs => if b = id then none else if c = id then some b else preceding? id (c :: cs)

def firstChild? (id : NodeId) : Option NodeId := (d.children id).head?

def lastChild? (id : NodeId) : Option NodeId := (d.children id).getLast?

def indexInParent? (id : NodeId) : Option Nat :=
  (d.parent? id).bind fun p ↦ (d.children p).findIdx? (· = id)

def nextSibling? (id : NodeId) : Option NodeId :=
  (d.parent? id).bind fun p ↦ following? id (d.children p)

def prevSibling? (id : NodeId) : Option NodeId :=
  (d.parent? id).bind fun p ↦ preceding? id (d.children p)

/-- The chain of parents, at most `n` of them. -/
def climb : Nat → NodeId → List NodeId
  | 0, _ => []
  | n + 1, id => match d.parent? id with
    | none => []
    | some p => p :: climb n p

def ancestors (id : NodeId) : List NodeId := d.climb d.size id

/-- The first node behind a node and all below it. -/
def nextAfter? (id : NodeId) : Option NodeId := (id :: d.ancestors id).findSome? d.nextSibling?

def nextInOrder? (id : NodeId) : Option NodeId := d.firstChild? id <|> d.nextAfter? id

/-- The last node below a node, following last children at most `n` times. -/
def deepestLast : Nat → NodeId → NodeId
  | 0, id => id
  | n + 1, id => match d.lastChild? id with
    | none => id
    | some c => deepestLast n c

def prevInOrder? (id : NodeId) : Option NodeId :=
  match d.prevSibling? id with
  | some s => some (d.deepestLast d.size s)
  | none => d.parent? id

/-- A node and those behind it in document order, at most `n` of them. -/
def forth : Nat → NodeId → List NodeId
  | 0, _ => []
  | n + 1, id => id :: match d.nextInOrder? id with
    | none => []
    | some next => forth n next

/-- A node and those before it in document order, the nearest first, at most `n` of them. -/
def back : Nat → NodeId → List NodeId
  | 0, _ => []
  | n + 1, id => id :: match d.prevInOrder? id with
    | none => []
    | some previous => back n previous

/-- A node and all below it, `n` levels deep, in document order. -/
def preorder : Nat → NodeId → List NodeId
  | 0, id => [id]
  | n + 1, id => id :: (d.children id).flatMap (preorder n)

def descendants (id : NodeId) : List NodeId := d.preorder d.size id

def textContent (id : NodeId) : String := String.join ((d.descendants id).filterMap d.text?)

/-- Whether one node is another or above it. -/
def contains (ancestor id : NodeId) : Bool := id == ancestor || (d.ancestors id).contains ancestor

def isAttached (id : NodeId) : Bool := id == d.root || (d.ancestors id).getLast? == some d.root

def commonAncestor? (a b : NodeId) : Option NodeId :=
  let chain := a :: d.ancestors a
  (b :: d.ancestors b).find? fun id ↦ chain.contains id

def ancestorChild? (ancestor id : NodeId) : Option NodeId :=
  (id :: d.ancestors id).find? fun c ↦ d.parent? c == some ancestor

/-- The positions among siblings on the way down to a node, in front of `below`. -/
def route? : Nat → NodeId → List Nat → Option (List Nat)
  | 0, _, _ => none
  | n + 1, id, below =>
    if id = d.root then some below
    else (d.indexInParent? id).bind fun i ↦ (d.parent? id).bind fun p ↦ route? n p (i :: below)

/-- The order of two routes: an ancestor comes before what is below it. -/
def compareRoutes : List Nat → List Nat → Ordering
  | [], [] => .eq
  | [], _ :: _ => .lt
  | _ :: _, [] => .gt
  | i :: is, j :: js => (compare i j).then (compareRoutes is js)

def compareOrder? (a b : NodeId) : Option Ordering :=
  if a = b then some .eq
  else (d.route? (d.size + 1) a []).bind fun r ↦ (d.route? (d.size + 1) b []).map (compareRoutes r)

end Stencil.Document
