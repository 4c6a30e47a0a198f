import Stencil.Command.Missing
/-!
Commands that compute a value and bind a variable to it.
-/

namespace Stencil

namespace Operator

def symbol : Operator → String
  | add => "+"
  | subtract => "-"
  | multiply => "*"
  | divide => "/"
  | remainder => "%"

def ofSymbol? (s : String) : Option Operator :=
  [add, subtract, multiply, divide, remainder].find? fun o ↦ o.symbol = s

/-- The exact result on whole numbers: a quotient is cut toward zero, and a remainder has the sign
of the dividend. Nothing is divided by zero. -/
def result? : Operator → Int → Int → Option Int
  | add, a, b => some (a + b)
  | subtract, a, b => some (a - b)
  | multiply, a, b => some (a * b)
  | divide, a, b => if b = 0 then none else some (a.tdiv b)
  | remainder, a, b => if b = 0 then none else some (a.tmod b)

/-- The result on whole numbers where it fits into 64 bits. A remainder is had only where the
quotient fits too. -/
def onInts? (o : Operator) (a b : Int) : Option Int :=
  if o = remainder ∧ Json.fitsInt (a.tdiv b) = false then none
  else (o.result? a b).filter Json.fitsInt

def onFloats : Operator → Float → Float → Float
  | add, a, b => a + b
  | subtract, a, b => a - b
  | multiply, a, b => a * b
  | divide, a, b => a / b
  | remainder, a, b => Decimal.remainder a b

/-- The result on numbers: whole when both operands are. -/
def apply (o : Operator) (a b : Scalar) : Except RunError Scalar :=
  match a, b with
  | .int m, .int n => match o.onInts? m n with
    | some r => .ok (.int r)
    | none => .error (.value (.uncomputable m o n))
  | a, b => .ok (.float (o.onFloats (a.float?.getD 0) (b.float?.getD 0)))

end Operator

namespace Handler

def operand (s : Selection) (key : String) : Run Scalar := do
  match ← s.value? key with
  | some (.leaf (.int n)) => return .int n
  | some (.leaf (.float x)) => return .float x
  | some v =>
    if v.isNull then throw (.missingValue ("Calc operand '" ++ key ++ "'"))
    else throw (.value (.notOperand key))
  | none => throw (.missingValue ("Calc operand '" ++ key ++ "'"))

/-- The operator of a command, addition unless another is given. -/
def operatorOf (c : Command) : Except RunError Operator :=
  match c.str? "operator" with
  | none => .ok .add
  | some symbol => match Operator.ofSymbol? symbol with
    | some o => .ok o
    | none => .error (.value (.unknownOperator symbol))

def calculation : Handler where
  names := ["Calc"]
  execute s := do
    let key ← s.requireStr "key"
    let operator ← Run.ofExcept id (operatorOf s.command)
    let a ← operand s "a"
    let b ← operand s "b"
    let result ← Run.ofExcept id (operator.apply a b)
    Run.log (.calculated key result.display)
    Run.push key (.leaf result)
    return .consumed

/-- The parameters whose values are put together. -/
def slots : List String := ["a", "b", "c", "d", "e"]

def concatenate : List Datum → Except RunError String
  | [] => .ok ""
  | .leaf v :: ds => (concatenate ds).map (v.text ++ ·)
  | _ :: _ => .error (.value .concatOfMany)

/-- Values put together: as a list, or as one text. -/
def combine (kind : String) (values : List Datum) : Except RunError Datum :=
  if kind = "list" then .ok (.list values)
  else if kind = "string" then (concatenate values).map fun t ↦ .leaf (.str t)
  else .error (.value (.unknownConcat kind))

def concatenation : Handler where
  names := ["Concat"]
  execute s := do
    let key ← s.requireStr "key"
    let values ← slots.filterMapM s.value?
    let bound ← Run.ofExcept id (combine ((s.str? "type").getD "list") values)
    Run.log (.concatenated key values.length)
    Run.push key bound
    return .consumed

end Handler

end Stencil
