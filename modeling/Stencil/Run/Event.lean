import Stencil.Run.Error
import Stencil.Text.Printable
/-!
The log of a run: what happened, how important it is, and the line that says so. A line names the
part of the program it comes from, and gives a message and fields.
-/

namespace Stencil

/-- How important an event is, from the most important down. -/
inductive LogLevel where
  | error
  | warn
  | info
  | debug
  | trace
  deriving DecidableEq, Repr

namespace LogLevel

def rank : LogLevel → Nat
  | error => 0
  | warn => 1
  | info => 2
  | debug => 3
  | trace => 4

def word : LogLevel → String
  | error => "ERROR"
  | warn => "WARN"
  | info => "INFO"
  | debug => "DEBUG"
  | trace => "TRACE"

/-- Whether a log of one level shows events of another. -/
def shows (limit level : LogLevel) : Bool := decide (level.rank ≤ limit.rank)

end LogLevel

inductive Event where
  | started
  | completed (executed ignored problems : Nat)
  | found (node : NodeId) (marker : String)
  | ignoredUnknown (command : String)
  | dispatching (command : String) (node : NodeId)
  | scanEnds (node : NodeId)
  | recorded (finding : Finding)
  | aliasDefined (key target : String)
  | deletingNode (node : NodeId)
  | splitBoundaries (before after : Bool)
  | deletingArea (count : Nat) (range : IndexRange)
  | clonedArea (copies : Nat)
  | concatenated (key : String) (parts : Nat)
  | calculated (key : String) (result : String)
  | clonedElement (name newName : String)
  | evaluated (holds : Bool)
  | pushed (key : String)
  | popped (key : String)
  | ignoresToEnd
  | expanding (copies : Nat) (index : String)
  | imported (blocks : Nat)
  | read (id : String) (bytes : Nat)
  | movingCursor (source target : String)
  | splittingText (node : NodeId) (marker : String)
  deriving DecidableEq, Repr

namespace Event

def level : Event → LogLevel
  | started => .info
  | completed _ _ _ => .info
  | found _ _ => .trace
  | ignoredUnknown _ => .debug
  | dispatching _ _ => .debug
  | scanEnds _ => .trace
  | recorded _ => .warn
  | aliasDefined _ _ => .trace
  | deletingNode _ => .trace
  | splitBoundaries _ _ => .debug
  | deletingArea _ _ => .debug
  | clonedArea _ => .debug
  | concatenated _ _ => .trace
  | calculated _ _ => .trace
  | clonedElement _ _ => .debug
  | evaluated _ => .debug
  | pushed _ => .trace
  | popped _ => .trace
  | ignoresToEnd => .debug
  | expanding _ _ => .debug
  | imported _ => .debug
  | read _ _ => .debug
  | movingCursor _ _ => .debug
  | splittingText _ _ => .trace

def target : Event → String
  | started => "docweave_engine::engine"
  | completed _ _ _ => "docweave_engine::engine"
  | found _ _ => "docweave_engine::engine"
  | ignoredUnknown _ => "docweave_engine::engine"
  | dispatching _ _ => "docweave_engine::engine"
  | scanEnds _ => "docweave_engine::engine"
  | recorded _ => "docweave_engine::engine"
  | aliasDefined _ _ => "docweave_engine::alias"
  | deletingNode _ => "docweave_engine::modifiers::node"
  | splitBoundaries _ _ => "docweave_engine::modifiers::area"
  | deletingArea _ _ => "docweave_engine::modifiers::area"
  | clonedArea _ => "docweave_engine::modifiers::area"
  | concatenated _ _ => "docweave_engine::commands::compute"
  | calculated _ _ => "docweave_engine::commands::compute"
  | clonedElement _ _ => "docweave_engine::commands::clone"
  | evaluated _ => "docweave_engine::commands::condition"
  | pushed _ => "docweave_engine::commands::scope"
  | popped _ => "docweave_engine::commands::scope"
  | ignoresToEnd => "docweave_engine::commands::ignore"
  | expanding _ _ => "docweave_engine::commands::loops"
  | imported _ => "docweave_engine::commands::import"
  | read _ _ => "docweave_engine::resource"
  | movingCursor _ _ => "docweave_model::access"
  | splittingText _ _ => "docweave_document::toolkit"

def boolText (b : Bool) : String := if b then "true" else "false"

/-- The message and the fields of an event; `name` says how handles in messages are written. -/
def text (name : NodeId → String) : Event → String
  | started => "Starting template run"
  | completed executed ignored problems =>
    "Template run complete executed=" ++ toString executed ++ " ignored=" ++ toString ignored ++
      " problems=" ++ toString problems
  | found node marker => "placeholder found node=" ++ toString node.index ++ " marker=" ++ marker
  | ignoredUnknown command => "ignoring unknown command command=" ++ command
  | dispatching command node => "dispatching command=" ++ command ++ " node=" ++ toString node.index
  | scanEnds node => "no continuation, scan ends node=" ++ toString node.index
  | recorded f =>
    f.error.message name ++ " kind=" ++ f.error.kind.display ++ " placeholder=" ++ Text.literal f.marker
  | aliasDefined key target => "alias defined alias=" ++ key ++ " target=" ++ target
  | deletingNode node => "deleting node node=" ++ toString node.index
  | splitBoundaries before after =>
    "split area boundaries split_before=" ++ boolText before ++ " split_after=" ++ boolText after
  | deletingArea count range =>
    "deleting area nodes=" ++ toString count ++ " range=" ++ range.display
  | clonedArea copies => "cloned area copies=" ++ toString copies
  | concatenated key parts => "concat key=" ++ Text.literal key ++ " parts=" ++ toString parts
  | calculated key result => "calc key=" ++ Text.literal key ++ " result=" ++ result
  | clonedElement name newName =>
    "cloned element name=" ++ Text.literal name ++ " new_name=" ++ Text.literal newName
  | evaluated holds => "evaluated condition holds=" ++ boolText holds
  | pushed key => "push key=" ++ Text.literal key
  | popped key => "pop key=" ++ Text.literal key
  | ignoresToEnd => "ignore region runs to the end of the document"
  | expanding copies index => "expanding loop copies=" ++ toString copies ++ " index=" ++ index
  | imported blocks => "imported fragment blocks=" ++ toString blocks
  | read id bytes => "read resource resource=" ++ id ++ " bytes=" ++ toString bytes
  | movingCursor source target => "moving data cursor from=" ++ source ++ " to=" ++ target
  | splittingText node marker =>
    "splitting text run around placeholder node=" ++ toString node.index ++ " marker=" ++ Text.literal marker

end Event

end Stencil
