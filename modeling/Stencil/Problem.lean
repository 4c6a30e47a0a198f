import Stencil.Json.Basic
/-!
Entries of the list of things that went wrong in a run: a kind, a message, and the command and the
placeholder concerned, as far as they are known.
-/

namespace Stencil

inductive ProblemKind where
  | commandFailed
  | unknownCommand
  | unreadablePlaceholder
  | invalidStructure
  | invalidCondition
  | unresolvableArea
  | missingValue
  | invalidValue
  | unreadableResource
  deriving DecidableEq, Repr

namespace ProblemKind

def all : List ProblemKind :=
  [commandFailed, unknownCommand, unreadablePlaceholder, invalidStructure, invalidCondition,
    unresolvableArea, missingValue, invalidValue, unreadableResource]

/-- The name of a kind in data text. -/
def key : ProblemKind → String
  | commandFailed => "commandHandlerFailed"
  | unknownCommand => "unknownCommand"
  | unreadablePlaceholder => "placeholderParseError"
  | invalidStructure => "invalidPlaceholderStructure"
  | invalidCondition => "invalidCondition"
  | unresolvableArea => "unresolvableArea"
  | missingValue => "missingValue"
  | invalidValue => "invalidValue"
  | unreadableResource => "ioFailure"

/-- The name of a kind in words. -/
def display : ProblemKind → String
  | commandFailed => "command-handler-failed"
  | unknownCommand => "unknown-command"
  | unreadablePlaceholder => "placeholder-parse-error"
  | invalidStructure => "invalid-placeholder-structure"
  | invalidCondition => "invalid-condition"
  | unresolvableArea => "unresolvable-area"
  | missingValue => "missing-value"
  | invalidValue => "invalid-value"
  | unreadableResource => "io-failure"

def ofKey? (s : String) : Option ProblemKind := all.find? fun k ↦ k.key = s

end ProblemKind

structure Problem where
  kind : ProblemKind
  message : String
  command? : Option String
  placeholder? : Option String
  deriving DecidableEq, Repr

namespace Problem

def display (p : Problem) : String :=
  "[" ++ p.kind.display ++ "]" ++
    (match p.command? with
      | some c => " " ++ c ++ ":"
      | none => "") ++
    " " ++ p.message ++
    (match p.placeholder? with
      | some m => " (at " ++ m ++ ")"
      | none => "")

/-- A text, or `null` for none. -/
def optionalText : Option String → Json
  | some s => .str s
  | none => .null

def toJson (p : Problem) : Json :=
  .obj [("kind", .str p.kind.key), ("message", .str p.message),
    ("command", optionalText p.command?), ("placeholder", optionalText p.placeholder?)]

end Problem

end Stencil
