import Stencil.Command.Missing
/-!
The command that merges another document into the one at hand. Two patterns may choose the blocks
between a block that matches the first and one that matches the second, both left out.
-/

namespace Stencil

/-- The patterns of the blocks around those that are merged. -/
structure FragmentBounds where
  opening? : Option Pattern
  closing? : Option Pattern

namespace FragmentBounds

/-- The blocks up to one that matches the second pattern. -/
def untilClosing (b : FragmentBounds) (blocks : List (String × NodeId)) : List (String × NodeId) :=
  match b.closing? with
  | none => blocks
  | some p => blocks.takeWhile fun t ↦ !p.matchesIn t.1

def choose (b : FragmentBounds) (blocks : List (String × NodeId)) : List (String × NodeId) :=
  match b.opening? with
  | none => b.untilClosing blocks
  | some p => b.untilClosing ((blocks.dropWhile fun t ↦ !p.matchesIn t.1).drop 1)

end FragmentBounds

namespace Handler

def pattern? (c : Command) (key : String) : Except RunError (Option Pattern) :=
  match c.str? key with
  | none => .ok none
  | some text => match Pattern.parse text with
    | .ok p => .ok (some p)
    | .error fault => .error (.value (.badPattern key fault))

/-- The text of a resource, kept for later unless that is refused. -/
def resourceText (s : Selection) (handle : String) : Run String :=
  if s.command.bool? "cache" = some false then Run.fetchText s.provider handle
  else Run.fragmentText s.provider handle

def fragmentSource (s : Selection) : Run String := do
  match s.str? "resource" with
  | some handle => resourceText s handle
  | none => match ← s.value? "value" with
    | some (.leaf (.str text)) => return text
    | some _ => throw (.value .notDocumentText)
    | none => throw (.missingValue "Import value")

def importBefore (source : Document) (anchor block : NodeId) : Run NodeId := do
  let copy ← Run.editFor fun d ↦ d.importSubtree source block
  Run.edit fun d ↦ d.insertBefore anchor copy
  return copy

/-- Merges another document in front of the paragraph of the placeholder, which goes. The scan goes
on at the first block merged. -/
def fragment : Handler where
  names := ["Import"]
  execute s := do
    let opening? ← Run.ofExcept id (pattern? s.command "beginFragment")
    let closing? ← Run.ofExcept id (pattern? s.command "endFragment")
    let text ← fragmentSource s
    let _ ← s.toolkit
    let source ← Run.newDocument text
    let anchor := (← Run.document).blockOf s.node
    let blocks := (source.children source.root).map fun id ↦ (source.textContent id, id)
    let chosen := FragmentBounds.choose ⟨opening?, closing?⟩ blocks
    let copies ← chosen.mapM fun b ↦ importBefore source anchor b.2
    Run.log (.imported copies.length)
    let next ← Selection.removePlaceholder s.node
    match copies with
    | first :: _ => return .executed (.at first)
    | [] => return .executed next

end Handler

end Stencil
