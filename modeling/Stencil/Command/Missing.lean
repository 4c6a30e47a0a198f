import Stencil.Json.Text
import Stencil.Run.Registry
/-!
What a command that writes a value does when there is none. The placeholder may become empty, take a
fallback, stay as it is, be removed, or count as failed.
-/

namespace Stencil

/-- What becomes of a placeholder whose value is missing. -/
inductive MissingPolicy where
  | empty
  | fallback
  | keep
  | delete
  | fail
  deriving DecidableEq, Repr

namespace MissingPolicy

def word : MissingPolicy → String
  | empty => "empty"
  | fallback => "fallback"
  | keep => "keepPlaceholder"
  | delete => "deletePlaceholder"
  | fail => "fail"

def ofWord? (s : String) : Option MissingPolicy := [empty, fallback, keep, delete, fail].find? fun p ↦ p.word = s

/-- The policy of a command. A fallback that is given is used unless another policy is named. -/
def ofCommand (c : Command) : Except RunError MissingPolicy :=
  match c.str? "onNull" with
  | none => .ok (if c.has "fallback" then fallback else empty)
  | some s => match ofWord? s with
    | some p => .ok p
    | none => .error (.value (.unknownStrategy s))

end MissingPolicy

/-- What a command's fallback is written as: a string as itself, `null` as nothing, any other value
as data text. -/
def Command.fallbackText (c : Command) : String :=
  match c.param? "fallback" with
  | none => ""
  | some (.str s) => s
  | some .null => ""
  | some v => v.text

namespace Selection

variable (s : Selection)

def str? (key : String) : Option String := s.command.str? key

def write (text : String) : Run Outcome := return Outcome.ofEdit (← s.replaceWithText text)

def remove : Run Outcome := return Outcome.ofEdit (← s.deletePlaceholder)

/-- Treats the placeholder as one without a value. -/
def writeMissing : Run Outcome := do
  match ← Run.ofExcept id (MissingPolicy.ofCommand s.command) with
  | .empty => s.write ""
  | .fallback => s.write s.command.fallbackText
  | .keep => return .ignored
  | .delete => s.remove
  | .fail => throw (.missingValue (s.command.describe "value"))

end Selection

end Stencil
