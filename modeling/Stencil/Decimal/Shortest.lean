import Stencil.Power
import Stencil.Decimal.Binary64
/-!
The shortest decimal of a binary64 number: the fewest digits that read back as the number, and of
those the nearest to it. Digits are sought on coarser grids first; on each grid only the two
neighbours of the value can lie in the interval of reals that round to it.
-/

namespace Stencil.Decimal

/-- The decimal `digits · 10 ^ exponent`. -/
structure Shortest where
  digits : Nat
  exponent : Int
  deriving DecidableEq, Repr

/-- The reals that round to a positive number, as numerators over a common denominator. The ends
belong to it when the significand is even. -/
structure Interval where
  low : Nat
  value : Nat
  high : Nat
  denominator : Nat
  closed : Bool

namespace Interval

/-- Half a step to both neighbours; the step below a power of two is half as wide. -/
def ofDyadic (d : Dyadic) : Interval :=
  let unit := twoTo d.exponent.toNat
  let below := if d.significand = twoTo 52 && decide (-1074 < d.exponent) then 1 else 2
  { low := (4 * d.significand - below) * unit
    value := 4 * d.significand * unit
    high := (4 * d.significand + 2) * unit
    denominator := 4 * d.denominator
    closed := d.significand % 2 == 0 }

/-- Whether `c · 10 ^ s` lies in the interval. -/
def contains (i : Interval) (c : Nat) (s : Int) : Bool :=
  let point := c * tenTo s.toNat * i.denominator
  let scale := tenTo (-s).toNat
  if i.closed then decide (i.low * scale ≤ point) && decide (point ≤ i.high * scale)
  else decide (i.low * scale < point) && decide (point < i.high * scale)

/-- The greatest multiple of `10 ^ s` that does not exceed the value. -/
def below (i : Interval) (s : Int) : Nat :=
  i.value * tenTo (-s).toNat / (i.denominator * tenTo s.toNat)

/-- Whether the value lies nearer to `(c + 1) · 10 ^ s` than to `c · 10 ^ s`, or halfway. -/
def nearerAbove (i : Interval) (c : Nat) (s : Int) : Bool :=
  decide ((2 * c + 1) * tenTo s.toNat * i.denominator ≤ 2 * i.value * tenTo (-s).toNat)

/-- The point of the grid of `10 ^ s` that stands for the value, if one lies in the interval. -/
def pick? (i : Interval) (s : Int) : Option Nat :=
  let c := i.below s
  match i.contains c s, i.contains (c + 1) s with
  | true, true => some (if i.nearerAbove c s then c + 1 else c)
  | true, false => some c
  | false, true => some (c + 1)
  | false, false => none

/-- The first grid with a point in the interval, from `10 ^ s` down. -/
def search (i : Interval) : Nat → Int → Shortest
  | 0, s => ⟨i.below s, s⟩
  | n + 1, s => match i.pick? s with
    | some c => ⟨c, s⟩
    | none => i.search n (s - 1)

end Interval

/-- A power of ten at or above the value: the grid on which the search begins. -/
def startGrid (d : Dyadic) : Int :=
  ((d.significand.log2 : Int) + d.exponent + 1) * 30103 / 100000 + 1

def Shortest.strip : Nat → Shortest → Shortest
  | 0, t => t
  | n + 1, t => if t.digits % 10 = 0 then strip n ⟨t.digits / 10, t.exponent + 1⟩ else t

/-- The shortest decimal of a magnitude; zero has the digit `0`. -/
def Dyadic.shortest (d : Dyadic) : Shortest :=
  if d.significand = 0 then ⟨0, 0⟩
  else ((Interval.ofDyadic d).search 24 (startGrid d)).strip 20

end Stencil.Decimal
