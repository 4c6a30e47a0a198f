import Stencil.Document.Order
/-!
Edits of the tree. Each one is refused before anything changes, or carried out as a whole.
-/

namespace Stencil.Document

variable (d : Document)

/-- Refuses what may not be put below a parent: the root, a node that has a parent, and a node that
contains the parent. Texts have no children. -/
def checkInsertable (parent id : NodeId) : Except DocumentError Unit := do
  d.check parent
  d.check id
  if id = d.root then .error .rootNode
  else if (d.parent? id).isSome then .error (.alreadyAttached id)
  else if d.contains id parent then .error (.cycle parent id)
  else if d.isText parent then .error .textParent
  else .ok ()

/-- Links a node to a parent whose children become those given. -/
def link (parent id : NodeId) (children : List NodeId) : Document :=
  (d.modify id fun n ↦ { n with parent? := some parent }).modify parent fun n ↦ { n with children }

def appendChild (parent id : NodeId) : Except DocumentError Document := do
  d.checkInsertable parent id
  .ok (d.link parent id (d.children parent ++ [id]))

def putBefore (ref id : NodeId) : List NodeId → List NodeId
  | [] => [id]
  | c :: cs => if c = ref then id :: c :: cs else c :: putBefore ref id cs

def putBehind (ref id : NodeId) : List NodeId → List NodeId
  | [] => [id]
  | c :: cs => if c = ref then c :: id :: cs else c :: putBehind ref id cs

def insertBeside (place : NodeId → NodeId → List NodeId → List NodeId) (ref id : NodeId) :
    Except DocumentError Document := do
  d.check ref
  match d.parent? ref with
  | none => .error (.detached ref)
  | some parent =>
    d.checkInsertable parent id
    .ok (d.link parent id (place ref id (d.children parent)))

def insertBefore (ref id : NodeId) : Except DocumentError Document := d.insertBeside putBefore ref id

def insertAfter (ref id : NodeId) : Except DocumentError Document := d.insertBeside putBehind ref id

/-- Cuts a node from its parent; what is below it stays with it. -/
def detach (id : NodeId) : Except DocumentError Document := do
  d.check id
  if id = d.root then .error .rootNode
  else match d.parent? id with
    | none => .error (.detached id)
    | some parent =>
      .ok ((d.modify parent fun n ↦ { n with children := n.children.filter (· ≠ id) }).modify id
        fun n ↦ { n with parent? := none })

/-- Puts a node in the place of another, which is detached. -/
def replace (old new : NodeId) : Except DocumentError Document := do
  let e ← d.insertBefore old new
  e.detach old

/-- Copies a node of `source` and what is below it, `n` levels deep. New nodes are created in
document order; each copy is linked behind its elder siblings. -/
def copyFrom (source : Document) : Nat → Document → NodeId → Except DocumentError (NodeId × Document)
  | 0, _, id => .error (.foreign id)
  | n + 1, d, id => match source.node? id with
    | none => .error (.foreign id)
    | some node =>
      let (copy, d) := d.create node.data
      node.children.foldlM (fun (p : NodeId × Document) child ↦ do
        let (c, e) ← copyFrom source n p.2 child
        .ok (copy, e.appendNew copy c)) (copy, d)

/-- A detached copy of a node and all below it. -/
def deepClone (id : NodeId) : Except DocumentError (NodeId × Document) :=
  copyFrom d (d.size + 1) d id

/-- A detached copy of a node of another document and all below it. -/
def importSubtree (source : Document) (id : NodeId) : Except DocumentError (NodeId × Document) :=
  copyFrom source (source.size + 1) d id

inductive Side where
  | before
  | after
  deriving DecidableEq, Repr

/-- The siblings on a side of a node, apart from the others. -/
def Side.cut (side : Side) (id : NodeId) (siblings : List NodeId) : List NodeId × List NodeId :=
  match side with
  | .before => (siblings.takeWhile (· ≠ id), siblings.dropWhile (· ≠ id))
  | .after =>
    ((siblings.dropWhile (· ≠ id)).drop 1,
      siblings.takeWhile (· ≠ id) ++ (siblings.dropWhile (· ≠ id)).take 1)

/-- The nodes that move together: siblings, and what was carried up from below at the end that
faces the node. -/
def Side.gather (side : Side) (siblings : List NodeId) (carried : Option NodeId) : List NodeId :=
  match side with
  | .before => siblings ++ carried.toList
  | .after => carried.toList ++ siblings

/-- Moves nodes from their parent into a new element like the parent; `kept` stay with it. -/
def moveOut (parent : NodeId) (moved kept : List NodeId) : NodeId × Document :=
  let data := (d.data? parent).getD (.text "")
  let (shell, d) := (d.modify parent fun n ↦ { n with children := kept }).create data
  let d := moved.foldl (fun d c ↦ d.modify c fun n ↦ { n with parent? := some shell }) d
  (shell, d.modify shell fun n ↦ { n with children := moved })

/-- Moves what stands on a side of a node into new elements, level by level up to `top`. The first
argument bounds the number of levels. -/
def carry (side : Side) (top : NodeId) : Nat → Document → NodeId → Option NodeId → Option NodeId × Document
  | 0, d, _, carried => (carried, d)
  | n + 1, d, id, carried =>
    if id = top then (carried, d)
    else match d.parent? id with
      | none => (carried, d)
      | some parent =>
        let (siblings, kept) := side.cut id (d.children parent)
        match side.gather siblings carried with
        | [] => carry side top n d parent none
        | moved =>
          let (shell, d) := d.moveOut parent moved kept
          carry side top n d parent (some shell)

/-- Splits the child of `ancestor` that contains a node: what stands on a side of the node moves
into a new sibling of that child, under copies of the elements between. Nothing is created when
there is nothing to move. -/
def splitOff (ancestor id : NodeId) (side : Side) : Except DocumentError (Option NodeId × Document) := do
  d.check ancestor
  d.check id
  match d.ancestorChild? ancestor id with
  | none => .error (.notBelow id ancestor)
  | some top =>
    match carry side top d.size d id none with
    | (none, e) => .ok (none, e)
    | (some part, e) =>
      let e ← match side with
        | .before => e.insertBefore top part
        | .after => e.insertAfter top part
      .ok (some part, e)

end Stencil.Document
