import Stencil.Run.Selection
/-!
Edits around a selection. Each says where the scan goes on; that place is settled before the edit,
for the neighbourhood of the selection may be gone after it. An edit that does not apply says
nothing.
-/

namespace Stencil

/-- Where a scan goes on: behind the placeholder, which is still there, at a node, or nowhere. -/
inductive Continuation where
  | proceed
  | at (node : NodeId)
  | stop
  deriving DecidableEq, Repr

namespace Continuation

/-- Going on at a node, or behind it and all below it. -/
def ofNode (d : Document) (node? : Option NodeId) (behind : Bool) : Continuation :=
  let target? := if behind then node?.bind d.nextAfter? else node?
  match target? with
  | some id => .at id
  | none => stop

end Continuation

/-- What came of a command: it left the placeholder alone, it changed the document, or it did
something else and leaves the placeholder to be removed. -/
inductive Outcome where
  | ignored
  | executed (next : Continuation)
  | consumed
  deriving DecidableEq, Repr

def Outcome.ofEdit : Option Continuation → Outcome
  | some next => executed next
  | none => ignored

namespace Selection

variable (s : Selection)

def replaceWithText (text : String) : Run (Option Continuation) := do
  if s.toolkit?.isNone then return none
  if (← Run.document).isText s.node then
    Run.edit fun d ↦ d.setText s.node text
    return some .proceed
  else return none

def deleteNode : Run (Option Continuation) := do
  let next := Continuation.ofNode (← Run.document) (some s.node) true
  Run.log (.deletingNode s.node)
  Run.detach s.node
  return some next

/-- Removes a placeholder, and says where to go on behind what is removed. -/
def removePlaceholder (id : NodeId) : Run Continuation := do
  let d ← Run.document
  let next := Continuation.ofNode d (some (d.removalRoot id)) true
  Run.edit fun d ↦ d.deletePlaceholder id
  return next

/-- Removes the placeholder, with its paragraph when nothing else is left in it. -/
def deletePlaceholder : Run (Option Continuation) :=
  match s.toolkit? with
  | none => s.deleteNode
  | some _ => do return some (← removePlaceholder s.node)

def insertImage (handle name : String) (policy : SizePolicy) : Run (Option Continuation) := do
  if s.toolkit?.isNone then return none
  let source ← Run.identify s.provider handle
  let natural ← Run.imageSize s.provider handle
  let size := policy.apply natural
  let element ← Run.editFor fun d ↦ d.insertImage s.node ⟨name, source, size.width, size.height⟩
  return some (Continuation.ofNode (← Run.document) (some element) true)

end Selection

end Stencil
