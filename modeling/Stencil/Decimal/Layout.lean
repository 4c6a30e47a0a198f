import Stencil.Power
import Stencil.Decimal.Shortest
/-!
How numbers are written. Text substituted into a document shows every digit in its place; data
text keeps a fraction on whole numbers and turns to an exponent for very large and very small
ones; a fixed number of places rounds the exact value.
-/

namespace Stencil.Decimal

def natText (n : Nat) : List Char := Nat.toDigits 10 n

def intText (n : Int) : List Char :=
  if n < 0 then '-' :: natText n.natAbs else natText n.natAbs

/-- Digits with the point after the first `point` of them, zeros filling the gap on either side. -/
def positional (digits : List Char) (point : Int) : List Char × List Char :=
  if point ≤ 0 then (['0'], List.replicate (-point).toNat '0' ++ digits)
  else
    let n := point.toNat
    (digits.take n ++ List.replicate (n - digits.length) '0', digits.drop n)

/-- Every digit in its place, no exponent, and a point only before a fraction. -/
def plainMagnitude (d : Dyadic) : List Char :=
  let t := d.shortest
  let digits := natText t.digits
  let (whole, fraction) := positional digits ((digits.length : Int) + t.exponent)
  if fraction.isEmpty then whole else whole ++ '.' :: fraction

def plain (x : Float) : List Char :=
  match Dyadic.ofFloat? x with
  | some d => (if d.negative then ['-'] else []) ++ plainMagnitude d
  | none => if x.isNaN then "NaN".toList else if x < 0 then "-inf".toList else "inf".toList

/-- Data text writes digits in place while the point stands behind the fifth zero of a small
fraction and before the seventeenth digit. -/
def inPlace (point : Int) : Bool := decide (-5 < point) && decide (point ≤ 16)

/-- A magnitude in data text: a fraction is always shown, or else an exponent. -/
def dataMagnitude (d : Dyadic) : List Char :=
  let t := d.shortest
  let digits := natText t.digits
  let point := (digits.length : Int) + t.exponent
  if inPlace point then
    let (whole, fraction) := positional digits point
    whole ++ '.' :: (if fraction.isEmpty then ['0'] else fraction)
  else
    let exponent := point - 1
    digits.take 1 ++ (if digits.length = 1 then [] else '.' :: digits.drop 1) ++
      'e' :: (if exponent < 0 then '-' else '+') :: natText exponent.natAbs

/-- A number in data text, where only finite numbers have a form. -/
def dataText? (x : Float) : Option (List Char) :=
  (Dyadic.ofFloat? x).map fun d ↦ (if d.negative then ['-'] else []) ++ dataMagnitude d

def padZeros (count : Nat) (digits : List Char) : List Char :=
  List.replicate (count - digits.length) '0' ++ digits

/-- The whole digits and the fraction of a magnitude rounded to `places`; an exact half goes to the
even neighbour. -/
def fixedMagnitude (places : Nat) (d : Dyadic) : List Char × List Char :=
  let units := roundDiv (d.numerator * tenTo places) d.denominator
  let digits := padZeros (places + 1) (natText units)
  (digits.take (digits.length - places), digits.drop (digits.length - places))

/-- The parts of a magnitude with a fixed number of places; a number that is not finite has its
name as whole part. -/
def fixed (places : Nat) (x : Float) : List Char × List Char :=
  match Dyadic.ofFloat? x with
  | some d => fixedMagnitude places d
  | none => (if x.isNaN then "NaN".toList else "inf".toList, [])

end Stencil.Decimal
