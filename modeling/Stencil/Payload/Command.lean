import Stencil.Json.Basic
import Stencil.Payload.Token
/-!
Commands as they stand in placeholders: a name and ordered parameters. A payload is one command or
several, carried out in order.
-/

namespace Stencil

/-- A command: its name, its parameters, and the stretch of text it was read from. -/
structure Command where
  name : String
  params : Entries Json
  span? : Option Payload.Span

namespace Command

/-- A command without parameters that was not read from text. -/
def bare (name : String) : Command := ⟨name, [], none⟩

def put (c : Command) (key : String) (value : Json) : Command :=
  { c with params := c.params.put key value }

def param? (c : Command) (key : String) : Option Json := c.params.get? key

def has (c : Command) (key : String) : Bool := c.params.has key

def str? (c : Command) (key : String) : Option String := (c.param? key).bind Json.str?

/-- A parameter that is a whole number of 64 signed bits. -/
def int? (c : Command) (key : String) : Option Int := (c.param? key).bind Json.int?

def bool? (c : Command) (key : String) : Option Bool := (c.param? key).bind Json.bool?

/-- Commands are the same when name and parameters are, wherever they were read. -/
def same (c d : Command) : Bool := c.name == d.name && Json.same (.obj c.params) (.obj d.params)

end Command

abbrev Commands := List Command

def Commands.same : Commands → Commands → Bool
  | [], [] => true
  | c :: cs, d :: ds => c.same d && Commands.same cs ds
  | _, _ => false

end Stencil
