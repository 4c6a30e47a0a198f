import Stencil.Calendar.Reading
import Stencil.Condition.Reading
import Stencil.Decimal.Picture
import Stencil.Document.Basic
import Stencil.IndexRange
import Stencil.Pattern.Reader
import Stencil.Payload.Reader
import Stencil.Problem
import Stencil.Resource.Provider
/-!
What goes wrong with placeholders: causes, the wording of each, and the kind of problem it is
reported as.
-/

namespace Stencil

inductive AreaEnd where
  | first
  | last
  deriving DecidableEq, Repr

def AreaEnd.word : AreaEnd → String
  | first => "begin"
  | last => "end"

/-- Why two nodes bound no area. -/
inductive AreaCause where
  | sameNode
  | noCommonAncestor
  | nested
  | notBelow
  | reversed
  deriving DecidableEq, Repr

def AreaCause.message : AreaCause → String
  | sameNode => "begin and end marker are the same node"
  | noCommonAncestor => "markers share no common ancestor"
  | nested => "one marker contains the other"
  | notBelow => "marker is not below the common ancestor"
  | reversed => "end marker precedes begin marker"

/-- What is wrong with the placement of a placeholder, or with the parameters that place it. -/
inductive StructureCause where
  | noToolkit
  | missingParam (command key : String)
  | noClosing (command closer : String)
  | notOpened (command : String)
  | rangeOutside (range area : IndexRange)
  | markerLeft (which : AreaEnd)
  | markerMissing (which : AreaEnd)
  | leftover (count : Nat) (command : String)
  | unbound (name : String)
  | noElement (name : String)
  | notCloneable (name : String)
  | refused (reason : String)
  deriving DecidableEq, Repr

def StructureCause.message : StructureCause → String
  | noToolkit => "no placeholder toolkit for this document"
  | missingParam command key => command ++ " requires a '" ++ key ++ "' parameter"
  | noClosing command closer => command ++ " has no matching " ++ closer
  | notOpened command => command ++ " without a matching opening placeholder"
  | rangeOutside range area => "delete range " ++ range.display ++ " lies outside area " ++ area.display
  | markerLeft which => which.word ++ " marker left the area"
  | markerMissing which => which.word ++ " marker missing in clone"
  | leftover count command =>
    toString count ++ " command(s) after " ++ command ++ " were not run because it rewrote the placeholder"
  | unbound name => "Pop of unbound variable '" ++ name ++ "'"
  | noElement name => "no element named '" ++ name ++ "'"
  | notCloneable name => "element '" ++ name ++ "' cannot be cloned"
  | refused reason => reason

inductive Operator where
  | add
  | subtract
  | multiply
  | divide
  | remainder
  deriving DecidableEq, Repr

def Operator.word : Operator → String
  | add => "Add"
  | subtract => "Subtract"
  | multiply => "Multiply"
  | divide => "Divide"
  | remainder => "Remainder"

inductive ValueCause where
  | notPathText (key : String)
  | unknownStrategy (name : String)
  | notSingle (what : String)
  | notJoinable
  | joinOfMap
  | notCount (key : String)
  | notNumber (key : String)
  | outOfRange
  | badPicture (fault : Decimal.PictureFault)
  | notMomentText (command : String)
  | badOutputFormat (format : String)
  | badMoment (text format : String) (fault : Calendar.Fault)
  | concatOfMany
  | unknownConcat (kind : String)
  | unknownOperator (symbol : String)
  | notOperand (key : String)
  | uncomputable (a : Int) (op : Operator) (b : Int)
  | selfAlias (key : String)
  | notObject (key : String)
  | notRename (key : String)
  | loopOfOther
  | badPattern (key : String) (fault : Pattern.Fault)
  | notDocumentText
  deriving DecidableEq, Repr

def ValueCause.message : ValueCause → String
  | notPathText key => "'" ++ key ++ "' must be a path string"
  | unknownStrategy name => "unknown onNull strategy '" ++ name ++ "'"
  | notSingle what => what ++ " is not a single value"
  | notJoinable => "Join can only join single values"
  | joinOfMap => "Join expects a list"
  | notCount key => "'" ++ key ++ "' must be a positive integer"
  | notNumber key => "'" ++ key ++ "' must be a number"
  | outOfRange => "number out of range"
  | badPicture fault => fault.message
  | notMomentText command => command ++ " expects a string value"
  | badOutputFormat format => "invalid outputFormat '" ++ format ++ "'"
  | badMoment text format fault =>
    "cannot parse date '" ++ text ++ "' with '" ++ format ++ "': " ++ fault.message
  | concatOfMany => "Concat type:string takes scalar values only"
  | unknownConcat kind => "Concat type must be 'list' or 'string', not '" ++ kind ++ "'"
  | unknownOperator symbol => "unknown Calc operator '" ++ symbol ++ "'"
  | notOperand key => "Calc operand '" ++ key ++ "' is not a number"
  | uncomputable a op b =>
    "cannot compute " ++ String.ofList (Decimal.intText a) ++ " " ++ op.word ++ " " ++
      String.ofList (Decimal.intText b)
  | selfAlias key => "alias '" ++ key ++ "' names itself"
  | notObject key => "'" ++ key ++ "' must be an object"
  | notRename key => "attrReplacements." ++ key ++ " must be a string"
  | loopOfOther => "For expects a list"
  | badPattern key fault => "invalid " ++ key ++ " pattern: " ++ fault.message
  | notDocumentText => "Import expects document text"

inductive RunError where
  | condition (error : ConditionError)
  | area (cause : AreaCause)
  | resource (handle : String) (cause : ResourceCause)
  | unknownCommand (name : String)
  | missingValue (what : String)
  | value (cause : ValueCause)
  | structure (cause : StructureCause)
  | payload (error : Payload.Error)
  | path (error : PathError)
  | document (error : DocumentError)
  | stepLimit (limit : Nat)
  deriving DecidableEq, Repr

namespace RunError

/-- The wording of an error; `name` says how handles are written. -/
def message (name : NodeId → String) : RunError → String
  | condition error => error.message
  | area cause => "Unresolvable area: " ++ cause.message
  | resource handle cause => "Failed to read resource '" ++ handle ++ "': " ++ cause.message
  | unknownCommand name => "Unknown command '" ++ name ++ "'"
  | missingValue what => "Missing value for '" ++ what ++ "'"
  | value cause => "Invalid value: " ++ cause.message
  | .structure cause => "Invalid placeholder structure: " ++ cause.message
  | payload error => "Placeholder parse error: " ++ error.message
  | path error => error.message
  | document error => error.message name
  | stepLimit limit => "Scan stopped after " ++ toString limit ++ " placeholder dispatches"

/-- The wording of what an error comes from, as far as that is an error in its own right. -/
def cause? : RunError → Option String
  | payload error => some error.message
  | resource _ cause => some cause.message
  | _ => none

def kind : RunError → ProblemKind
  | condition _ => .invalidCondition
  | area _ => .unresolvableArea
  | resource _ _ => .unreadableResource
  | unknownCommand _ => .unknownCommand
  | missingValue _ => .missingValue
  | value _ => .invalidValue
  | path _ => .invalidValue
  | .structure _ => .invalidStructure
  | document _ => .invalidStructure
  | payload _ => .unreadablePlaceholder
  | stepLimit _ => .commandFailed

end RunError

/-- A problem of a run: what went wrong, with which command, as far as there is one, and at which
marker. -/
structure Finding where
  error : RunError
  command? : Option String
  marker : String
  deriving DecidableEq, Repr

def Finding.problem (name : NodeId → String) (f : Finding) : Problem :=
  ⟨f.error.kind, f.error.message name, f.command?, some f.marker⟩

end Stencil
