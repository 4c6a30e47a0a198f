import Stencil.Decimal.Layout
/-!
Single values of application data and their order. Whole numbers and binary64 numbers compare with
each other as numbers; every other kind compares with its own kind only.
-/

namespace Stencil

/-- A single value. Whole numbers are those of 64 signed bits. -/
inductive Scalar where
  | null
  | bool (b : Bool)
  | int (n : Int)
  | float (x : Float)
  | str (s : String)
  deriving Inhabited

namespace Scalar

def isNull : Scalar → Bool
  | null => true
  | _ => false

def str? : Scalar → Option String
  | str s => some s
  | _ => none

def float? : Scalar → Option Float
  | int n => some (Decimal.ofInt n)
  | float x => some x
  | _ => none

def isNumber : Scalar → Bool
  | int _ => true
  | float _ => true
  | _ => false

/-- The order of two numbers; none when one of them is no number at all. -/
def compareFloats (x y : Float) : Option Ordering :=
  if x < y then some .lt else if x == y then some .eq else if y < x then some .gt else none

/-- The order of two values, where they have one. Booleans are equal or not comparable. -/
def compare? : Scalar → Scalar → Option Ordering
  | null, null => some .eq
  | bool a, bool b => if a = b then some .eq else none
  | int a, int b => some (compare a b)
  | str a, str b => some (compare a b)
  | a, b => match a.float?, b.float? with
    | some x, some y => compareFloats x y
    | _, _ => none

/-- Equality by kind and value: a whole number differs from every binary64 number. -/
def same : Scalar → Scalar → Bool
  | null, null => true
  | bool a, bool b => a == b
  | int a, int b => a == b
  | float a, float b => a == b
  | str a, str b => a == b
  | _, _ => false

/-- A value in words; `null` has one. -/
def display : Scalar → String
  | null => "null"
  | bool b => if b then "true" else "false"
  | int n => String.ofList (Decimal.intText n)
  | float x => String.ofList (Decimal.plain x)
  | str s => s

/-- A value as text of a document, where `null` is empty. -/
def text : Scalar → String
  | null => ""
  | v => v.display

end Scalar

end Stencil
