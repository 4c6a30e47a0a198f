import Stencil.Data.Scope
/-!
The state that values are read from: the data root, the cursor in it, and the variables.

A path is followed on a stack of nodes, the node reached on top and the nodes passed below it, so
that a step up needs no search. A step that leads nowhere ends the walk with nothing.
-/

namespace Stencil

namespace Path

/-- Follows one step. `anchor` is the stack that the path began with. -/
def follow (root : Datum) (scope : Scope) (anchor : List Datum) :
    List Datum → Step → Option (List Datum)
  | [], .name _ => none
  | [], .index _ => none
  | top :: below, .name s => (top.get? s).map fun d ↦ d :: top :: below
  | top :: below, .index n => (top.at? n).map fun d ↦ d :: top :: below
  | _, .variableName s => (scope.get? s).map fun d ↦ [d]
  | _ :: below :: rest, .parent => some (below :: rest)
  | _, .parent => none
  | _, .root => some [root]
  | _, .current => some anchor

def followAll (root : Datum) (scope : Scope) (anchor : List Datum) :
    List Datum → List Step → Option (List Datum)
  | stack, [] => some stack
  | stack, s :: ss => (follow root scope anchor stack s).bind fun t ↦
    followAll root scope anchor t ss

/-- The node that a path leads to from a cursor. The cursor is walked first, from the root. -/
def resolve (p : Path) (root : Datum) (cursor : Path) (scope : Scope) : Option Datum := do
  let start ← followAll root scope [root] [root] cursor.steps
  let stack ← followAll root scope start start p.steps
  stack.head?

end Path

/-- Where a parameter takes its value from: itself, a variable, or the data. -/
inductive Source where
  | literal (value : Datum)
  | ofVariable (path : Path)
  | ofModel (path : Path)

structure Model where
  root : Datum
  cursor : Path
  scope : Scope

namespace Model

def ofData (root : Datum) : Model := ⟨root, ⟨[]⟩, Scope.empty⟩

def resolve (m : Model) (p : Path) : Option Datum := p.resolve m.root m.cursor m.scope

def current (m : Model) : Option Datum := m.resolve ⟨[]⟩

def value? (m : Model) : Source → Option Datum
  | .literal v => some v
  | .ofVariable p => m.resolve p
  | .ofModel p => m.resolve p

/-- Puts the cursor where a path leads from the root. -/
def setCursor (m : Model) (p : Path) : Except PathError Model := do
  let next ← p.normalize
  .ok { m with cursor := next }

def enter (m : Model) (p : Path) : Except PathError Model := m.setCursor (m.cursor.join p)

def push (m : Model) (name : String) (value : Datum) : Except PathError Model := do
  let scope ← m.scope.push name value
  .ok { m with scope }

end Model

end Stencil
