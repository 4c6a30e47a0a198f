import Stencil.Power
import Stencil.Entries
import Stencil.Decimal.Binary64
/-!
Data text values. Objects keep their entries in order. A number is a whole number when it was
written without a fraction and fits into 64 bits, signed or not, and a binary64 number otherwise.
-/

namespace Stencil

inductive Json where
  | null
  | bool (b : Bool)
  | int (n : Int)
  | float (x : Float)
  | str (s : String)
  | arr (items : List Json)
  | obj (entries : List (String × Json))
  deriving Inhabited

namespace Json

/-- The least whole number of 64 signed bits. -/
def minInt : Int := -(twoTo 63 : Nat)

/-- The greatest whole number of 64 signed bits. -/
def maxInt : Int := twoTo 63 - 1

def fitsInt (n : Int) : Bool := decide (minInt ≤ n) && decide (n ≤ maxInt)

def str? : Json → Option String
  | .str s => some s
  | _ => none

def bool? : Json → Option Bool
  | .bool b => some b
  | _ => none

/-- The whole number of a value that fits into 64 signed bits. -/
def int? : Json → Option Int
  | .int n => if fitsInt n then some n else none
  | _ => none

def nat? : Json → Option Nat
  | .int n => if n < 0 then none else some n.toNat
  | _ => none

def float? : Json → Option Float
  | .int n => some (Decimal.ofInt n)
  | .float x => some x
  | _ => none

def obj? : Json → Option (Entries Json)
  | .obj es => some es
  | _ => none

def isNull : Json → Bool
  | .null => true
  | _ => false

mutual

/-- Equality of values: numbers by kind and value, objects by what their keys hold, in any
order. -/
def same : Json → Json → Bool
  | .null, .null => true
  | .bool a, .bool b => a == b
  | .int a, .int b => a == b
  | .float a, .float b => a == b
  | .str a, .str b => a == b
  | .arr as, .arr bs => sameItems as bs
  | .obj as, .obj bs => as.length == bs.length && sameEntries as bs
  | _, _ => false

def sameItems : List Json → List Json → Bool
  | [], [] => true
  | a :: as, b :: bs => same a b && sameItems as bs
  | _, _ => false

def sameEntries : List (String × Json) → List (String × Json) → Bool
  | [], _ => true
  | (k, v) :: es, others =>
    (match Entries.get? k others with
      | some w => same v w
      | none => false) && sameEntries es others

end

instance : BEq Json := ⟨same⟩

mutual

/-- A value in which no object repeats a key: the first place and the last value of a key stay. -/
def merged : Json → Json
  | .arr items => .arr (mergedItems items)
  | .obj entries => .obj (Entries.ofPairs (mergedEntries entries))
  | v => v

def mergedItems : List Json → List Json
  | [] => []
  | v :: vs => merged v :: mergedItems vs

/-- The values of entries, merged; repetitions of a key stay. -/
def mergedEntries : List (String × Json) → List (String × Json)
  | [] => []
  | (k, v) :: es => (k, merged v) :: mergedEntries es

end

/-- The first key that entries repeat, among those that count. -/
def repeated? (counts : String → Bool) : List (String × Json) → Option String
  | [] => none
  | (k, _) :: es => repeated? counts es <|> if counts k && Entries.has k es then some k else none

end Json

end Stencil
