import Stencil.Data.Path
/-!
Variable bindings. Every name has a stack of its own: a push hides what the name was bound to, and
a pop shows it again. A name without bindings is not there.
-/

namespace Stencil

/-- Names with their bindings, the visible one first; no stack is empty. -/
structure Scope where
  bindings : Entries (List Datum)

namespace Scope

def empty : Scope := ⟨[]⟩

def isNameChar (c : Char) : Bool :=
  !(c == '.' || c == '[' || c == ']' || c == '^' || c == '<' || c == '$' || Text.isBlank c)

def isName (name : String) : Bool := !name.toList.isEmpty && name.toList.all isNameChar

def checkName (name : String) : Except PathError Unit :=
  if isName name then .ok () else .error (.invalidName name)

/-- The bindings of a name, the visible one first. -/
def stack (scope : Scope) (name : String) : List Datum := (scope.bindings.get? name).getD []

def push (scope : Scope) (name : String) (value : Datum) : Except PathError Scope := do
  checkName name
  .ok ⟨scope.bindings.put name (value :: scope.stack name)⟩

def get? (scope : Scope) (name : String) : Option Datum := (scope.stack name).head?

def pop? (scope : Scope) (name : String) : Option (Datum × Scope) :=
  match scope.stack name with
  | [] => none
  | [v] => some (v, ⟨scope.bindings.filter fun e ↦ e.1 != name⟩)
  | v :: vs => some (v, ⟨scope.bindings.put name vs⟩)

def isBound (scope : Scope) (name : String) : Bool := (scope.get? name).isSome

def depth (scope : Scope) (name : String) : Nat := (scope.stack name).length

def names (scope : Scope) : List String := scope.bindings.keys

def isEmpty (scope : Scope) : Bool := scope.bindings.isEmpty

end Scope

end Stencil
