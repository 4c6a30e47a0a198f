import Stencil.Command.Missing
/-!
Commands that write numbers and moments in a format.
-/

namespace Stencil

/-- The number of a parameter. A whole number beyond 64 signed bits is the nearest binary64
number. -/
def Command.number? (c : Command) (key : String) : Except RunError (Option Scalar) :=
  match c.param? key with
  | none => .ok none
  | some .null => .ok none
  | some (.int n) => .ok (some (if Json.fitsInt n then .int n else .float (Decimal.ofInt n)))
  | some (.float x) => .ok (some (.float x))
  | some _ => .error (.value (.notNumber key))

structure NumberOp where
  onInts : Int → Int → Int
  onFloats : Float → Float → Float

def NumberOp.product : NumberOp := ⟨fun a b ↦ a * b, fun a b ↦ a * b⟩

def NumberOp.sum : NumberOp := ⟨fun a b ↦ a + b, fun a b ↦ a + b⟩

/-- Changes a number by an operand, where there is one. Whole numbers give a whole number, which
must fit into 64 bits. -/
def NumberOp.adjust (op : NumberOp) (value : Scalar) : Option Scalar → Except RunError Scalar
  | none => .ok value
  | some operand => match value, operand with
    | .int a, .int b =>
      let n := op.onInts a b
      if Json.fitsInt n then .ok (.int n) else .error (.value .outOfRange)
    | a, b => match a.float?, b.float? with
      | some x, some y => .ok (.float (op.onFloats x y))
      | _, _ => .ok a

def defaultPicture : String := "#,###.##"

namespace Command

/-- A number changed as a command says: first multiplied, then added to. -/
def adjusted (c : Command) (value : Scalar) : Except RunError Scalar := do
  let factor ← c.number? "multiplier"
  let value ← NumberOp.product.adjust value factor
  let summand ← c.number? "summand"
  NumberOp.sum.adjust value summand

/-- The picture in which a command shows a number; whole numbers may have one of their own. -/
def pictureText (c : Command) (value : Scalar) : String :=
  let general := (c.str? "format").getD defaultPicture
  match value with
  | .int _ => (c.str? "intFormat").getD general
  | _ => general

def numberText (c : Command) (value : Scalar) : Except RunError String := do
  let v ← c.adjusted value
  match Decimal.Picture.parse (c.pictureText v) with
  | .error fault => .error (.value (.badPicture fault))
  | .ok picture =>
    let digits := picture.text (Decimal.Separators.ofTag (c.str? "lang")) (v.float?.getD 0)
    .ok ((c.str? "prefix").getD "" ++ String.ofList digits ++ (c.str? "suffix").getD "")

end Command

namespace Handler

/-- Writes a number. What is no number counts as missing. -/
def number : Handler where
  names := ["Number"]
  execute s := do
    match ← s.value? "value" with
    | some (.leaf v) =>
      if v.isNumber then s.write (← Run.ofExcept id (s.command.numberText v)) else s.writeMissing
    | _ => s.writeMissing

structure MomentFormats where
  input : String
  output : String

def momentOf (text format : String) : Except RunError Calendar.Moment :=
  match Calendar.Moment.parse text format with
  | .ok m => .ok m
  | .error fault => .error (.value (.badMoment text format fault))

def writeMoment (s : Selection) (m : Calendar.Moment) (format : String) : Run Outcome :=
  match m.format? format with
  | some text => s.write text
  | none => throw (.value (.badOutputFormat format))

/-- Writes the moment that a text gives; without a value it is that of the clock. -/
def moment (name : String) (formats : MomentFormats) : Handler where
  names := [name]
  execute s := do
    let input := (s.str? "inputFormat").getD formats.input
    let output := (s.str? "outputFormat").getD formats.output
    match ← s.source? "value" with
    | none => writeMoment s s.now output
    | some source => match (← Run.model).value? source with
      | some (.leaf (.str text)) => writeMoment s (← Run.ofExcept id (momentOf text input)) output
      | none => s.writeMissing
      | some v =>
        if v.isNull then s.writeMissing else throw (.value (.notMomentText s.command.name))

def date : Handler := moment "Date" ⟨"%Y-%m-%d", "%Y-%m-%d"⟩

def timeOfDay : Handler := moment "Time" ⟨"%Y-%m-%d %H:%M:%S", "%H:%M:%S"⟩

end Handler

end Stencil
