import Stencil.Data.Model
/-!
Conditions: comparisons of data with literals, joined by "all of", "any of" and "not". What a
comparison needs of the data is only how a value is ordered against its literal, and values that
have no order make it fail.
-/

namespace Stencil

inductive Comparator where
  | equal
  | less
  | greater
  deriving DecidableEq, Repr

def Comparator.ordering : Comparator → Ordering
  | equal => .eq
  | less => .lt
  | greater => .gt

/-- What a comparison reads: a path that starts with a variable, or a data path. -/
inductive Field where
  | ofVariable (path : Path)
  | ofModel (path : Path)
  deriving DecidableEq, Repr

namespace Field

def path : Field → Path
  | ofVariable p => p
  | ofModel p => p

def display : Field → String
  | ofVariable p => p.display
  | ofModel p => "@" ++ p.display

/-- Reads a field by the mark it begins with; without a mark it is a data path. -/
def parse (text : String) : Except PathError Field :=
  match text.toList with
  | '@' :: rest => (Path.parse (String.ofList rest)).map ofModel
  | '$' :: _ => (Path.parseVariable text).map ofVariable
  | _ => (Path.parse text).map ofModel

end Field

structure Comparison where
  field : Field
  literal : Datum
  comparator : Comparator

inductive Condition where
  | compare (c : Comparison)
  | all (members : List Condition)
  | any (members : List Condition)
  | not (c : Condition)

namespace Condition

/-- What a condition asks of the data: the order of a comparison's value and literal. -/
abbrev Oracle := Comparison → Option Ordering

def accepts (order : Oracle) (c : Comparison) : Bool := order c == some c.comparator.ordering

mutual

/-- Whether a condition holds. No member of "all of" is needed, and none suffices for "any of". -/
def holds (order : Oracle) : Condition → Bool
  | compare c => accepts order c
  | all cs => allHold order cs
  | any cs => anyHolds order cs
  | not c => !holds order c

def allHold (order : Oracle) : List Condition → Bool
  | [] => true
  | c :: cs => holds order c && allHold order cs

def anyHolds (order : Oracle) : List Condition → Bool
  | [] => false
  | c :: cs => holds order c || anyHolds order cs

end

mutual

/-- The comparisons that settle a condition, from left to right: what follows a member that settles
the whole is not looked at. -/
def settling (order : Oracle) : Condition → List Comparison
  | compare c => [c]
  | all cs => settlingAll order cs
  | any cs => settlingAny order cs
  | not c => settling order c

def settlingAll (order : Oracle) : List Condition → List Comparison
  | [] => []
  | c :: cs => settling order c ++ if holds order c then settlingAll order cs else []

def settlingAny (order : Oracle) : List Condition → List Comparison
  | [] => []
  | c :: cs => settling order c ++ if holds order c then [] else settlingAny order cs

end

/-- The order of a value against a literal. Nothing equals `null`, an empty list equals an empty
list, and single values have the order of single values. -/
def orderAgainst (literal : Datum) : Option Datum → Option Ordering
  | none => if literal.isNull then some .eq else none
  | some v => match literal, v with
    | .list [], .list xs => if xs.isEmpty then some .eq else none
    | .leaf b, .leaf a => a.compare? b
    | _, _ => none

def orderIn (m : Model) : Oracle := fun c ↦ orderAgainst c.literal (m.resolve c.field.path)

end Condition

end Stencil
