import Stencil.Proofs.Grove.Copy
import Stencil.Proofs.Grove.Division
/-!
Edits in single steps, on a document that is kept also when an edit is refused in the middle. A step
may find an index outside the arena or outside a list of children, and a loop may find no end; then
there is no outcome. On a forest none of this happens, and the edits come out as they are defined.
-/

namespace Stencil.Document

/-- What steps on a document give: a value or a refusal, with the document as it then is. -/
abbrev Steps := ExceptT DocumentError (StateT Document Option)

namespace Steps

variable {α β : Type}

def on (s : Steps α) (d : Document) : Option (Except DocumentError α × Document) := s d

def look (f : Document → Except DocumentError α) : Steps α := fun d ↦ some (f d, d)

def demand (f : Document → Option α) (e : DocumentError) : Steps α := look fun d ↦
  match f d with
  | some a => .ok a
  | none => .error e

def slot (i : ℕ) : Steps Node := fun d ↦ d.nodes[i]?.map fun n ↦ (.ok n, d)

def put (i : ℕ) (f : Node → Node) : Steps Unit := fun d ↦
  if i < d.nodes.size then some (.ok (), { d with nodes := d.nodes.modify i f }) else none

def within (p : Prop) [Decidable p] : Steps Unit := fun d ↦ if p then some (.ok (), d) else none

def create (data : NodeData) : Steps NodeId := fun d ↦ some (.ok (d.create data).1, (d.create data).2)

/-- A loop that has found no end. -/
def endless : Steps α := fun _ ↦ none

/-! ### The edits -/

def setText (id : NodeId) (s : String) : Steps Unit := do
  let n ← demand (·.node? id) (.foreign id)
  match n.data with
  | .text _ => put id.index fun n ↦ { n with data := .text s }
  | .element .. => throw (.notText id)

def setAttr (id : NodeId) (name value : String) : Steps Unit := do
  match ← look fun d ↦ .ok (d.node? id) with
  | some ⟨.element tag attrs, _, _⟩ => put id.index fun n ↦ { n with data := .element tag (attrs.put name value) }
  | _ => pure ()

def appendChild (parent id : NodeId) : Steps Unit := do
  look fun d ↦ d.checkInsertable parent id
  put id.index fun n ↦ { n with parent? := some parent }
  put parent.index fun n ↦ { n with children := n.children ++ [id] }

/-- Puts a node among the siblings of another, `offset` places from it. -/
def insertAt (ref id : NodeId) (offset : ℕ) : Steps Unit := do
  look fun d ↦ d.check ref
  let parent ← demand (·.parent? ref) (.detached ref)
  look fun d ↦ d.checkInsertable parent id
  let index ← demand (·.indexInParent? ref) (.detached ref)
  put id.index fun n ↦ { n with parent? := some parent }
  let n ← slot parent.index
  within (index + offset ≤ n.children.length)
  put parent.index fun n ↦ { n with children := n.children.insertIdx (index + offset) id }

def insert (side : Side) (ref id : NodeId) : Steps Unit :=
  match side with
  | .before => insertAt ref id 0
  | .after => insertAt ref id 1

def detach (id : NodeId) : Steps Unit := do
  look fun d ↦ d.check id
  if id = (← look fun d ↦ .ok d.root) then throw .rootNode else
    let parent ← demand (·.parent? id) (.detached id)
    put parent.index fun n ↦ { n with children := n.children.filter (· ≠ id) }
    put id.index fun n ↦ { n with parent? := none }

def replace (old new : NodeId) : Steps Unit := do
  insert .before old new
  detach old

def appendFresh (parent child : NodeId) : Steps Unit := do
  match ← look (fun d ↦ .ok (d.node? parent)), ← look (fun d ↦ .ok (d.node? child)) with
  | some _, some _ =>
    put child.index fun n ↦ { n with parent? := some parent }
    put parent.index fun n ↦ { n with children := n.children ++ [child] }
  | _, _ => pure ()

/-- Copies a node and what is below it, at most `n` levels deep. Each node is looked for when its
turn comes, in the document as it then is or in another one. -/
def copy (find : Document → NodeId → Option Node) : ℕ → NodeId → Steps NodeId
  | 0, _ => endless
  | n + 1, id => do
    let node ← demand (find · id) (.foreign id)
    let c ← create node.data
    node.children.forM fun child ↦ do appendFresh c (← copy find n child)
    pure c

/-- The siblings on a side of the one at an index, apart from the others. -/
def span (side : Side) (index : ℕ) (siblings : List NodeId) : List NodeId × List NodeId :=
  match side with
  | .before => (siblings.take index, siblings.drop index)
  | .after => (siblings.drop (index + 1), siblings.take (index + 1))

/-- Moves what stands on a side of a node into new elements, level by level, at most `n` of them. -/
def carry (side : Side) (top : NodeId) : ℕ → NodeId → Option NodeId → Steps (Option NodeId)
  | 0, _, _ => endless
  | n + 1, id, carried => do
    if id = top then return carried
    let parent ← demand (·.parent? id) (.detached id)
    let index ← demand (·.indexInParent? id) (.detached id)
    let m ← slot parent.index
    within (index < m.children.length)
    let (moved, kept) := span side index m.children
    put parent.index fun n ↦ { n with children := kept }
    match side.gather moved carried with
    | [] => carry side top n parent carried
    | moved =>
      let m ← slot parent.index
      let shell ← create m.data
      moved.forM fun c ↦ put c.index fun n ↦ { n with parent? := some shell }
      put shell.index fun n ↦ { n with children := moved }
      carry side top n parent (some shell)

def splitOff (ancestor id : NodeId) (side : Side) : Steps (Option NodeId) := do
  look fun d ↦ d.check ancestor
  look fun d ↦ d.check id
  let top ← demand (·.ancestorChild? ancestor id) (.notBelow id ancestor)
  let carried ← carry side top (← look fun d ↦ .ok (d.size + 1)) id none
  match carried with
  | some part => insert side top part
  | none => pure ()
  return carried

/-! ### Outcomes -/

@[simp] theorem on_pure (a : α) (d : Document) : (pure a : Steps α).on d = some (.ok a, d) := rfl

@[simp] theorem on_throw (e : DocumentError) (d : Document) : (throw e : Steps α).on d = some (.error e, d) := rfl

@[simp] theorem on_look (f : Document → Except DocumentError α) (d : Document) : (look f).on d = some (f d, d) := rfl

@[simp] theorem on_create (data : NodeData) (d : Document) :
    (create data).on d = some (.ok d.fresh, (d.create data).2) := rfl

theorem on_bind (s : Steps α) (f : α → Steps β) (d : Document) : (s >>= f).on d = (s.on d).bind fun r ↦
    match r with
    | (.ok a, e) => (f a).on e
    | (.error x, e) => some (.error x, e) := by
  change (StateT.bind _ _ : StateT Document Option _) d = _
  rw [StateT.bind]
  change ((s.on d).bind _) = _
  congr
  funext ⟨r, e⟩
  cases r <;> rfl

variable {s : Steps α} {f : α → Steps β} {a : α} {x : DocumentError} {d e : Document}

theorem on_bind_ok (h : s.on d = some (.ok a, e)) : (s >>= f).on d = (f a).on e := by rw [on_bind, h]; rfl

theorem on_bind_error (h : s.on d = some (.error x, e)) : (s >>= f).on d = some (.error x, e) := by
  rw [on_bind, h]
  rfl

theorem on_demand_some {g : Document → Option α} (h : g d = some a) : (demand g x).on d = some (.ok a, d) := by
  simp [demand, h]

theorem on_demand_none {g : Document → Option α} (h : g d = none) : (demand g x).on d = some (.error x, d) := by
  simp [demand, h]

theorem on_within {p : Prop} [Decidable p] (h : p) : (within p).on d = some (.ok (), d) := if_pos h

variable {id : NodeId} {n : Node}

theorem on_slot (h : d.node? id = some n) : (slot id.index).on d = some (.ok n, d) := by
  have hslot : d.nodes[id.index]? = some n := by rwa [node?, if_pos (document_eq h)] at h
  simp [slot, on, hslot]

theorem on_put {g g' : Node → Node} (h : d.node? id = some n) (hg : g n = g' n) :
    (put id.index g).on d = some (.ok (), d.modify id g') := by
  have hslot : d.nodes[id.index]? = some n := by rwa [node?, if_pos (document_eq h)] at h
  have hmodify : d.nodes.modify id.index g = d.nodes.modify id.index g' := by
    ext i hi hi'
    · simp
    · rw [Array.getElem_modify, Array.getElem_modify]
      split
      · next heq =>
        subst heq
        rw [(Array.getElem?_eq_some_iff.1 hslot).2, hg]
      · rfl
  have hput : put id.index g d = some (.ok (), { d with nodes := d.nodes.modify id.index g }) := if_pos (index_lt_size h)
  rw [on, hput, modify, if_pos (document_eq h), hmodify]

theorem on_forM_put {g : Node → Node} : ∀ {ids : List NodeId} {d : Document}, (∀ id ∈ ids, d.node? id ≠ none) →
    (ids.forM fun id ↦ put id.index g).on d = some (.ok (), ids.foldl (fun d id ↦ d.modify id g) d)
  | [], _, _ => rfl
  | id :: ids, d, h => by
    obtain ⟨n, hn⟩ := Option.ne_none_iff_exists'.1 (h id (List.mem_cons_self ..))
    rw [List.forM, on_bind_ok (on_put hn rfl), List.foldl_cons]
    exact on_forM_put fun other hother ↦ (Grows.modify d id g).known other (h other (List.mem_cons_of_mem _ hother))

end Steps

end Stencil.Document
