import Stencil.Run.Edit
/-!
Handlers of commands, and registries of handlers by the names they answer to. A handler registered
later takes over the names of an earlier one.
-/

namespace Stencil

/-- A handler: the names it answers to, and what it does. -/
structure Handler where
  names : List String
  execute : Selection → Run Outcome

/-- Handlers by name. -/
structure Registry where
  handlers : Entries Handler

namespace Registry

def empty : Registry := ⟨[]⟩

/-- A registry with a handler under each of its names. -/
def register (r : Registry) (h : Handler) : Registry :=
  ⟨h.names.foldl (fun es name ↦ es.put name h) r.handlers⟩

def ofList (hs : List Handler) : Registry := hs.foldl register empty

def get? (r : Registry) (name : String) : Option Handler := r.handlers.get? name

def has (r : Registry) (name : String) : Bool := (r.get? name).isSome

def names (r : Registry) : List String := r.handlers.keys.mergeSort fun a b ↦ decide (a ≤ b)

end Registry

end Stencil
