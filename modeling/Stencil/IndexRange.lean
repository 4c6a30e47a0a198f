import Stencil.Power
import Stencil.Decimal.Layout
/-!
Ranges of positions, both ends included. The ends of a range are in order by its type, however it
was made.
-/

namespace Stencil

structure IndexRange where
  low : Nat
  high : Nat
  low_le_high : low ≤ high := by omega
  deriving DecidableEq, Repr

namespace IndexRange

/-- The range with two ends, given in either order. -/
def ofEnds (a b : Nat) : IndexRange := ⟨min a b, max a b, by omega⟩

def point (n : Nat) : IndexRange := ⟨n, n, Nat.le_refl n⟩

/-- The least range that covers another and a position. -/
def extend (r : IndexRange) (n : Nat) : IndexRange := ⟨min r.low n, max r.high n, by
  have := r.low_le_high
  omega⟩

/-- The least range that covers positions, of which there must be one. -/
def covering : List Nat → Option IndexRange
  | [] => none
  | n :: ns => some (ns.foldl extend (point n))

def contains (r : IndexRange) (n : Nat) : Bool := decide (r.low ≤ n) && decide (n ≤ r.high)

/-- The number of positions, where a machine word can hold it. -/
def length? (r : IndexRange) : Option Nat :=
  let n := r.high - r.low + 1
  if n ≤ maxWord then some n else none

/-- The positions that begin with `n`, at most `count` of them. -/
def positionsFrom (r : IndexRange) : Nat → Nat → List Nat
  | 0, _ => []
  | count + 1, n => if n ≤ r.high then n :: positionsFrom r count (n + 1) else []

def take (r : IndexRange) (count : Nat) : List Nat := r.positionsFrom count r.low

def positions (r : IndexRange) : List Nat := r.take (r.high - r.low + 1)

def display (r : IndexRange) : String :=
  String.ofList ('[' :: Decimal.natText r.low ++ [',', ' '] ++ Decimal.natText r.high ++ [']'])

@[simp] theorem contains_iff {r : IndexRange} {n : Nat} :
    r.contains n = true ↔ r.low ≤ n ∧ n ≤ r.high := by simp [contains]

end IndexRange

end Stencil
