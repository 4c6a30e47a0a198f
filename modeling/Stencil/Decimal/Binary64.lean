import Stencil.Power
/-!
Binary64 numbers as exact fractions. A finite number is a whole significand times a power of two;
reading a fraction rounds it to the nearest such number, a half to the even significand.
-/

namespace Stencil.Decimal

/-- The quotient `num / den`, rounded to the nearest whole number, a half to the even one. -/
def roundDiv (num den : Nat) : Nat :=
  let q := num / den
  let r := num % den
  if 2 * r < den then q else if den < 2 * r then q + 1 else q + q % 2

/-- The value `± significand · 2 ^ exponent`. -/
structure Dyadic where
  negative : Bool
  significand : Nat
  exponent : Int
  deriving DecidableEq, Repr

namespace Dyadic

/-- The finite value that a bit pattern stands for; nothing for infinities and NaN. -/
def ofBits? (bits : Nat) : Option Dyadic :=
  let biased : Nat := bits / twoTo 52 % 2048
  let fraction : Nat := bits % twoTo 52
  let negative := decide (twoTo 63 ≤ bits)
  if biased = 2047 then none
  else if biased = 0 then some ⟨negative, fraction, -1074⟩
  else some ⟨negative, twoTo 52 + fraction, (biased : Int) - 1075⟩

def ofFloat? (x : Float) : Option Dyadic := ofBits? x.toBits.toNat

def numerator (d : Dyadic) : Nat := d.significand * twoTo d.exponent.toNat

/-- A power of two that makes the magnitude a fraction. -/
def denominator (d : Dyadic) : Nat := twoTo (-d.exponent).toNat

end Dyadic

def infinityBits : Nat := 2047 * twoTo 52

/-- The bit pattern of the number nearest to `num / den`; infinity from half a step beyond the
largest finite number on. -/
def magnitudeBits (num den : Nat) : Nat :=
  if num = 0 then 0
  else
    let scaled (q : Int) (f : Nat → Nat → Nat) : Nat := f (num * twoTo (-q).toNat) (den * twoTo q.toNat)
    let low : Int := (num.log2 : Int) - (den.log2 : Int) - 53
    let normal : Int := if twoTo 53 ≤ scaled low (· / ·) then low + 1 else low
    let q : Int := max normal (-1074)
    let m := scaled q roundDiv
    let bits := if m < twoTo 52 then m else (q + 1075).toNat * twoTo 52 + (m - twoTo 52)
    min bits infinityBits

def signed (negative : Bool) (magnitude : Nat) : Float :=
  Float.ofBits (UInt64.ofNat ((if negative then twoTo 63 else 0) + magnitude))

def ofInt (n : Int) : Float := signed (decide (n < 0)) (magnitudeBits n.natAbs 1)

/-- The number nearest to `± digits · 10 ^ exponent`. Exponents that put the value beyond every
finite number, or nearer to zero than to the least one, are settled without forming the power. -/
def ofDecimal (negative : Bool) (digits : Nat) (exponent : Int) : Float :=
  if digits = 0 then signed negative 0
  else if 400 < exponent then signed negative infinityBits
  else if exponent + (digits.log2 / 3 : Nat) < -400 then signed negative 0
  else signed negative
    (magnitudeBits (digits * tenTo exponent.toNat) (tenTo (-exponent).toNat))

/-- The remainder of a division with the quotient cut toward zero: it is exact and has the sign of
`x`. There is none when `y` is zero or `x` is infinite, and `x` itself remains under an infinite
`y`. -/
def remainder (x y : Float) : Float :=
  match Dyadic.ofFloat? x, Dyadic.ofFloat? y with
  | some a, some b =>
    if b.significand = 0 then 0.0 / 0.0
    else
      let q := min a.exponent b.exponent
      let m := a.significand * twoTo (a.exponent - q).toNat
      let n := b.significand * twoTo (b.exponent - q).toNat
      signed a.negative (magnitudeBits (m % n * twoTo q.toNat) (twoTo (-q).toNat))
  | some _, none => if y.isNaN then y else x
  | none, _ => 0.0 / 0.0

end Stencil.Decimal
