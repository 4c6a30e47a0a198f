import Stencil.Data.Scalar
import Stencil.Json.Basic
/-!
The tree of application data: single values, lists, and maps that keep the order of their keys.
-/

namespace Stencil

/-- A node of application data. -/
inductive Datum where
  | leaf (value : Scalar)
  | list (items : List Datum)
  | map (entries : List (String × Datum))
  deriving Inhabited

namespace Datum

/-- The absent value that is present: a leaf holding `null`. -/
def null : Datum := leaf .null

def empty : Datum := map []

def isLeaf : Datum → Bool
  | leaf _ => true
  | _ => false

def isNull : Datum → Bool
  | leaf .null => true
  | _ => false

def scalar? : Datum → Option Scalar
  | leaf v => some v
  | _ => none

def items? : Datum → Option (List Datum)
  | list xs => some xs
  | _ => none

def entries? : Datum → Option (Entries Datum)
  | map es => some es
  | _ => none

def get? (d : Datum) (key : String) : Option Datum :=
  match d with
  | map es => Entries.get? key es
  | _ => none

def at? (d : Datum) (index : Nat) : Option Datum :=
  match d with
  | list xs => xs[index]?
  | _ => none

/-- A map with an entry put; other nodes have no such form. -/
def put? (d : Datum) (key : String) (value : Datum) : Option Datum :=
  match d with
  | map es => some (map (Entries.put key value es))
  | _ => none

/-- A list with an item appended; other nodes have no such form. -/
def push? (d value : Datum) : Option Datum :=
  match d with
  | list xs => some (list (xs ++ [value]))
  | _ => none

def size : Datum → Nat
  | leaf _ => 0
  | list xs => xs.length
  | map es => es.length

mutual

def toJson : Datum → Json
  | leaf .null => .null
  | leaf (.bool b) => .bool b
  | leaf (.int n) => .int n
  | leaf (.float x) => if x.isFinite then .float x else .null
  | leaf (.str s) => .str s
  | list xs => .arr (itemsToJson xs)
  | map es => .obj (entriesToJson es)

def itemsToJson : List Datum → List Json
  | [] => []
  | x :: xs => toJson x :: itemsToJson xs

def entriesToJson : List (String × Datum) → List (String × Json)
  | [] => []
  | (k, v) :: es => (k, toJson v) :: entriesToJson es

end

mutual

/-- Data text as a node. A whole number beyond 64 signed bits becomes the nearest binary64
number. -/
def ofJson : Json → Datum
  | .null => leaf .null
  | .bool b => leaf (.bool b)
  | .int n => if Json.fitsInt n then leaf (.int n) else leaf (.float (Decimal.ofInt n))
  | .float x => leaf (.float x)
  | .str s => leaf (.str s)
  | .arr xs => list (itemsOfJson xs)
  | .obj es => map (entriesOfJson es)

def itemsOfJson : List Json → List Datum
  | [] => []
  | x :: xs => ofJson x :: itemsOfJson xs

def entriesOfJson : List (String × Json) → List (String × Datum)
  | [] => []
  | (k, v) :: es => (k, ofJson v) :: entriesOfJson es

end

mutual

/-- Equality of nodes; maps are equal when their keys hold equal nodes, in any order. -/
def same : Datum → Datum → Bool
  | leaf a, leaf b => a.same b
  | list as, list bs => sameItems as bs
  | map as, map bs => as.length == bs.length && sameEntries as bs
  | _, _ => false

def sameItems : List Datum → List Datum → Bool
  | [], [] => true
  | a :: as, b :: bs => same a b && sameItems as bs
  | _, _ => false

def sameEntries : List (String × Datum) → List (String × Datum) → Bool
  | [], _ => true
  | (k, v) :: es, others =>
    (match Entries.get? k others with
      | some w => same v w
      | none => false) && sameEntries es others

end

end Datum

end Stencil
