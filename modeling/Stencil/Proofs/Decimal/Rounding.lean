import Stencil.Decimal.Shortest
import Mathlib.Algebra.Order.Field.Power
import Mathlib.Data.Rat.Cast.Order
import Mathlib.Tactic
/-!
Rounding of fractions to binary64 numbers. A number attracts the reals within half a step of it,
the ends of that interval only when its significand is even, and the bit pattern found for a
fraction is that of the number which attracts it.
-/

namespace Stencil.Decimal

theorem twoTo_eq (n : ℕ) : twoTo n = 2 ^ n := rfl

theorem tenTo_eq (n : ℕ) : tenTo n = 10 ^ n := rfl

theorem roundDiv_eq {num den m : ℕ} (hden : 0 < den) (hlow : 2 * m * den ≤ 2 * num + den)
    (hhigh : 2 * num ≤ 2 * m * den + den)
    (heven : 2 * m * den = 2 * num + den ∨ 2 * num = 2 * m * den + den → m % 2 = 0) :
    roundDiv num den = m := by
  have hdiv := Nat.div_add_mod num den
  have hmod := Nat.mod_lt num hden
  have hle : num / den ≤ m := by
    by_contra h
    have : den * (m + 1) ≤ den * (num / den) := Nat.mul_le_mul_left _ (by omega)
    have := Nat.zero_le (num % den)
    nlinarith
  have hge : m ≤ num / den + 1 := by
    by_contra h
    have : den * (num / den + 2) ≤ den * m := Nat.mul_le_mul_left _ (by omega)
    nlinarith
  simp only [roundDiv]
  rcases Nat.lt_or_ge (num / den) m with h | h
  · obtain rfl : m = num / den + 1 := by omega
    have hr : den ≤ 2 * (num % den) := by nlinarith
    rcases Nat.eq_or_lt_of_le hr with hr | hr
    · have := heven (.inl (by nlinarith))
      rw [if_neg (by omega), if_neg (by omega)]
      omega
    · rw [if_neg (by omega), if_pos hr]
  · obtain rfl : m = num / den := by omega
    have hr : 2 * (num % den) ≤ den := by nlinarith
    rcases Nat.eq_or_lt_of_le hr with hr | hr
    · have := heven (.inr (by nlinarith))
      rw [if_neg (by omega), if_neg (by omega)]
      omega
    · rw [if_pos hr]

theorem two_zpow_pos (e : ℤ) : (0 : ℚ) < 2 ^ e := by positivity

theorem two_zpow_split (e : ℤ) : (2 : ℚ) ^ e = 2 ^ e.toNat / 2 ^ (-e).toNat := by
  rw [eq_div_iff (by positivity), ← zpow_natCast, ← zpow_natCast, ← zpow_add₀ (by norm_num)]
  congr 1
  omega

theorem ten_zpow_split (e : ℤ) : (10 : ℚ) ^ e = 10 ^ e.toNat / 10 ^ (-e).toNat := by
  rw [eq_div_iff (by positivity), ← zpow_natCast, ← zpow_natCast, ← zpow_add₀ (by norm_num)]
  congr 1
  omega

theorem scaled_cast {num den : ℕ} (hden : 0 < den) (q : ℤ) :
    ((num * twoTo (-q).toNat : ℕ) : ℚ) / (den * twoTo q.toNat : ℕ) = num / den * 2 ^ (-q) := by
  have hd : (den : ℚ) ≠ 0 := by positivity
  rw [two_zpow_split (-q), neg_neg, twoTo_eq, twoTo_eq]
  push_cast
  field_simp

theorem le_scaled_div {num den k : ℕ} (hden : 0 < den) (q : ℤ) :
    k ≤ num * twoTo (-q).toNat / (den * twoTo q.toNat) ↔ (k : ℚ) ≤ num / den * 2 ^ (-q) := by
  have hpos : 0 < den * twoTo q.toNat := Nat.mul_pos hden (twoTo_pos _)
  rw [Nat.le_div_iff_mul_le hpos, ← scaled_cast hden, le_div_iff₀ (by exact_mod_cast hpos)]
  exact_mod_cast Iff.rfl

theorem log2_ratio {num den : ℕ} (hnum : num ≠ 0) (hden : 0 < den) :
    (2 : ℚ) ^ ((num.log2 : ℤ) - den.log2 - 1) < num / den ∧
      (num : ℚ) / den < 2 ^ ((num.log2 : ℤ) - den.log2 + 1) := by
  have hd : (0 : ℚ) < den := by exact_mod_cast hden
  have h₁ : (2 : ℚ) ^ (num.log2 : ℤ) ≤ num := by exact_mod_cast Nat.log2_self_le hnum
  have h₂ : (num : ℚ) < 2 ^ ((num.log2 : ℤ) + 1) := by exact_mod_cast (Nat.lt_log2_self (n := num))
  have h₃ : (2 : ℚ) ^ (den.log2 : ℤ) ≤ den := by exact_mod_cast Nat.log2_self_le hden.ne'
  have h₄ : (den : ℚ) < 2 ^ ((den.log2 : ℤ) + 1) := by exact_mod_cast (Nat.lt_log2_self (n := den))
  constructor
  · rw [lt_div_iff₀ hd]
    calc (2 : ℚ) ^ ((num.log2 : ℤ) - den.log2 - 1) * den
        < 2 ^ ((num.log2 : ℤ) - den.log2 - 1) * 2 ^ ((den.log2 : ℤ) + 1) := by gcongr
      _ = 2 ^ (num.log2 : ℤ) := by rw [← zpow_add₀ (by norm_num)]; congr 1; omega
      _ ≤ num := h₁
  · rw [div_lt_iff₀ hd]
    calc (num : ℚ) < 2 ^ ((num.log2 : ℤ) + 1) := h₂
      _ = 2 ^ ((num.log2 : ℤ) - den.log2 + 1) * 2 ^ (den.log2 : ℤ) := by
        rw [← zpow_add₀ (by norm_num)]; congr 1; omega
      _ ≤ 2 ^ ((num.log2 : ℤ) - den.log2 + 1) * den := by gcongr

def normalExponent (num den : ℕ) : ℤ :=
  let low : ℤ := (num.log2 : ℤ) - (den.log2 : ℤ) - 53
  if twoTo 53 ≤ num * twoTo (-low).toNat / (den * twoTo low.toNat) then low + 1 else low

theorem normalExponent_spec {num den : ℕ} (hnum : num ≠ 0) (hden : 0 < den) :
    (2 : ℚ) ^ (normalExponent num den + 52) ≤ num / den ∧
      (num : ℚ) / den < 2 ^ (normalExponent num den + 53) := by
  obtain ⟨hlow, hhigh⟩ := log2_ratio hnum hden
  simp only [normalExponent]
  set low : ℤ := (num.log2 : ℤ) - den.log2 - 53 with hl
  have hcast : ((2 ^ 53 : ℕ) : ℚ) ≤ num / den * 2 ^ (-low) ↔ (2 : ℚ) ^ (low + 53) ≤ num / den := by
    rw [zpow_neg, ← div_eq_mul_inv, le_div_iff₀ (two_zpow_pos low), zpow_add₀ (by norm_num), mul_comm]
    norm_num
  split
  · next h =>
    rw [le_scaled_div hden, twoTo_eq, hcast] at h
    refine ⟨by rw [show low + 1 + 52 = low + 53 by ring]; exact h, ?_⟩
    rw [show low + 1 + 53 = (num.log2 : ℤ) - den.log2 + 1 by omega]
    exact hhigh
  · next h =>
    rw [le_scaled_div hden, twoTo_eq, hcast, not_le] at h
    refine ⟨?_, h⟩
    rw [show low + 52 = (num.log2 : ℤ) - den.log2 - 1 by omega]
    exact hlow.le

theorem normalExponent_unique {num den : ℕ} {k : ℤ} (hnum : num ≠ 0) (hden : 0 < den)
    (hlow : (2 : ℚ) ^ (k + 52) ≤ num / den) (hhigh : (num : ℚ) / den < 2 ^ (k + 53)) :
    normalExponent num den = k := by
  obtain ⟨h₁, h₂⟩ := normalExponent_spec hnum hden
  have ha := (zpow_lt_zpow_iff_right₀ (by norm_num : (1 : ℚ) < 2)).1 (h₁.trans_lt hhigh)
  have hb := (zpow_lt_zpow_iff_right₀ (by norm_num : (1 : ℚ) < 2)).1 (hlow.trans_lt h₂)
  omega

namespace Dyadic

/-- The form in which bit patterns give finite numbers: a significand of 53 bits, or a smaller one
with the least exponent. -/
structure Canonical (d : Dyadic) : Prop where
  small : d.significand < 2 ^ 53
  least : -1074 ≤ d.exponent
  greatest : d.exponent ≤ 971
  normal : d.exponent = -1074 ∨ 2 ^ 52 ≤ d.significand

def pattern (d : Dyadic) : ℕ :=
  if d.significand < 2 ^ 52 then d.significand
  else (d.exponent + 1075).toNat * 2 ^ 52 + (d.significand - 2 ^ 52)

/-- How far down a number attracts, in steps of its own: below a power of two the steps are half as
wide. -/
def reach (d : Dyadic) : ℚ := if d.significand = 2 ^ 52 ∧ -1074 < d.exponent then 1 / 4 else 1 / 2

structure Attracts (d : Dyadic) (v : ℚ) : Prop where
  low : (d.significand : ℚ) - d.reach ≤ v * 2 ^ (-d.exponent)
  high : v * 2 ^ (-d.exponent) ≤ (d.significand : ℚ) + 1 / 2
  even : (d.significand : ℚ) - d.reach = v * 2 ^ (-d.exponent) ∨
    v * 2 ^ (-d.exponent) = (d.significand : ℚ) + 1 / 2 → d.significand % 2 = 0

theorem pattern_lt {d : Dyadic} (hd : d.Canonical) : d.pattern < infinityBits := by
  obtain ⟨h₁, h₂, h₃, h₄⟩ := hd
  have : infinityBits = 2047 * 2 ^ 52 := rfl
  simp only [pattern]
  split <;> omega

end Dyadic

/-- Rounding a fraction of a power of two, for a target that is at most half a unit away. -/
theorem roundDiv_scaled {num den m : ℕ} {q : ℤ} (hden : 0 < den)
    (hlow : (m : ℚ) - 1 / 2 ≤ num / den * 2 ^ (-q)) (hhigh : (num : ℚ) / den * 2 ^ (-q) ≤ m + 1 / 2)
    (heven : (m : ℚ) - 1 / 2 = num / den * 2 ^ (-q) ∨ (num : ℚ) / den * 2 ^ (-q) = m + 1 / 2 → m % 2 = 0) :
    roundDiv (num * twoTo (-q).toNat) (den * twoTo q.toNat) = m := by
  have hpos : 0 < den * twoTo q.toNat := Nat.mul_pos hden (twoTo_pos _)
  have hq : (0 : ℚ) < (den * twoTo q.toNat : ℕ) := by exact_mod_cast hpos
  rw [← scaled_cast hden] at hlow hhigh heven
  generalize num * twoTo (-q).toNat = a at *
  generalize den * twoTo q.toNat = b at *
  have hm : (a : ℚ) / b * b = a := div_mul_cancel₀ _ hq.ne'
  have hl : (2 * m * b : ℚ) ≤ 2 * a + b := by nlinarith
  have hh : (2 * a : ℚ) ≤ 2 * m * b + b := by nlinarith
  refine roundDiv_eq hpos (by exact_mod_cast hl) (by exact_mod_cast hh) fun h ↦ heven ?_
  rcases h with h | h
  · left
    have : (2 * m * b : ℚ) = 2 * a + b := by exact_mod_cast h
    rw [eq_div_iff hq.ne']
    linarith
  · right
    have : (2 * a : ℚ) = 2 * m * b + b := by exact_mod_cast h
    rw [div_eq_iff hq.ne']
    linarith

theorem magnitudeBits_eq {num den : ℕ} (hnum : num ≠ 0) :
    magnitudeBits num den =
      min (let q := max (normalExponent num den) (-1074)
        let m := roundDiv (num * twoTo (-q).toNat) (den * twoTo q.toNat)
        if m < 2 ^ 52 then m else (q + 1075).toNat * 2 ^ 52 + (m - 2 ^ 52)) infinityBits := by
  simp only [magnitudeBits, if_neg hnum]
  rfl

theorem Dyadic.reach_le (d : Dyadic) : d.reach ≤ 1 / 2 := by
  simp only [reach]
  split <;> norm_num

theorem roundDiv_of_attracts {d : Dyadic} {num den : ℕ} (hden : 0 < den) (h : d.Attracts (num / den)) :
    roundDiv (num * twoTo (-d.exponent).toNat) (den * twoTo d.exponent.toNat) = d.significand := by
  have hreach := d.reach_le
  refine roundDiv_scaled hden (by linarith [h.low]) h.high fun he ↦ h.even ?_
  rcases he with he | he
  · exact .inl (le_antisymm h.low (by linarith))
  · exact .inr he

theorem Dyadic.step_value (d : Dyadic) (v : ℚ) : v = v * 2 ^ (-d.exponent) * 2 ^ d.exponent := by
  rw [mul_assoc, ← zpow_add₀ (by norm_num), neg_add_cancel, zpow_zero, mul_one]

theorem Dyadic.step_mul (d : Dyadic) (k : ℤ) : (2 : ℚ) ^ (d.exponent + k) = 2 ^ k * 2 ^ d.exponent := by
  rw [zpow_add₀ (by norm_num), mul_comm]

/-- A fraction lies on the grid of the number that attracts it, unless it is below a power of two
which is the number. -/
theorem normalExponent_of_attracts {d : Dyadic} {num den : ℕ} (hd : d.Canonical) (hnum : num ≠ 0)
    (hden : 0 < den) (h : d.Attracts (num / den))
    (hx : d.exponent = -1074 ∨ 2 ^ 52 ≤ (num : ℚ) / den * 2 ^ (-d.exponent)) :
    max (normalExponent num den) (-1074) = d.exponent := by
  have he := two_zpow_pos d.exponent
  have hm : (d.significand : ℚ) + 1 ≤ 2 ^ 53 := by exact_mod_cast hd.small
  have hhigh : (num : ℚ) / den < 2 ^ (d.exponent + 53) := by
    rw [d.step_value (num / den), d.step_mul]
    refine mul_lt_mul_of_pos_right ?_ he
    have := h.high
    norm_num at this ⊢
    linarith
  by_cases h52 : (2 : ℚ) ^ 52 ≤ num / den * 2 ^ (-d.exponent)
  · have hlow : (2 : ℚ) ^ (d.exponent + 52) ≤ num / den := by
      rw [d.step_value (num / den), d.step_mul]
      exact mul_le_mul_of_nonneg_right (by exact_mod_cast h52) he.le
    rw [normalExponent_unique hnum hden hlow hhigh]
    exact max_eq_left hd.least
  · have hmin := hx.resolve_right h52
    have hs := (normalExponent_spec hnum hden).1.trans_lt hhigh
    have hn := (zpow_lt_zpow_iff_right₀ (by norm_num : (1 : ℚ) < 2)).1 hs
    rw [hmin]
    exact max_eq_right (by omega)

theorem normalExponent_below {d : Dyadic} {num den : ℕ} (hnum : num ≠ 0) (hden : 0 < den)
    (hleast : -1074 < d.exponent) (hlow : 2 ^ 51 ≤ (num : ℚ) / den * 2 ^ (-d.exponent))
    (hhigh : (num : ℚ) / den * 2 ^ (-d.exponent) < 2 ^ 52) :
    max (normalExponent num den) (-1074) = d.exponent - 1 := by
  have he := two_zpow_pos d.exponent
  have hl : (2 : ℚ) ^ (d.exponent - 1 + 52) ≤ num / den := by
    rw [d.step_value (num / den), show d.exponent - 1 + 52 = d.exponent + 51 by ring, d.step_mul]
    exact mul_le_mul_of_nonneg_right (by exact_mod_cast hlow) he.le
  have hh : (num : ℚ) / den < 2 ^ (d.exponent - 1 + 53) := by
    rw [d.step_value (num / den), show d.exponent - 1 + 53 = d.exponent + 52 by ring, d.step_mul]
    exact mul_lt_mul_of_pos_right (by exact_mod_cast hhigh) he
  rw [normalExponent_unique hnum hden hl hh]
  exact max_eq_left (by omega)

theorem magnitudeBits_of_attracts {d : Dyadic} {num den : ℕ} (hd : d.Canonical)
    (hpos : 0 < d.significand) (hden : 0 < den) (h : d.Attracts (num / den)) :
    magnitudeBits num den = d.pattern := by
  have hreach := d.reach_le
  have hm : (1 : ℚ) ≤ d.significand := by exact_mod_cast hpos
  have hnum : num ≠ 0 := by
    rintro rfl
    have := h.low
    simp only [Nat.cast_zero, zero_div, zero_mul] at this
    linarith
  have hlt := d.pattern_lt hd
  rw [magnitudeBits_eq hnum]
  by_cases hx : d.exponent = -1074 ∨ (2 : ℚ) ^ 52 ≤ num / den * 2 ^ (-d.exponent)
  · simp only [normalExponent_of_attracts hd hnum hden h hx, roundDiv_of_attracts hden h]
    exact min_eq_left hlt.le
  · rw [not_or, not_le] at hx
    have hleast : -1074 < d.exponent := lt_of_le_of_ne hd.least (Ne.symm hx.1)
    have hsig : d.significand = 2 ^ 52 := by
      have h₁ := hd.normal.resolve_left hx.1
      have h₂ : (d.significand : ℚ) < 2 ^ 52 + 1 := by linarith [h.low]
      have h₃ : d.significand < 2 ^ 52 + 1 := by exact_mod_cast h₂
      omega
    have hlow := h.low
    rw [Dyadic.reach, if_pos ⟨hsig, hleast⟩, hsig] at hlow
    push_cast at hlow
    have hgrid := normalExponent_below hnum hden hleast (by linarith) hx.2
    have hdouble : (num : ℚ) / den * 2 ^ (-(d.exponent - 1)) = 2 * (num / den * 2 ^ (-d.exponent)) := by
      rw [neg_sub, sub_eq_neg_add, zpow_add₀ (by norm_num)]
      ring
    have hround : roundDiv (num * twoTo (-(d.exponent - 1)).toNat) (den * twoTo (d.exponent - 1).toNat) =
        2 ^ 53 := by
      refine roundDiv_scaled hden ?_ ?_ fun _ ↦ rfl
      · rw [hdouble]; push_cast; linarith
      · rw [hdouble]; push_cast; linarith [hx.2]
    simp only [hgrid, hround]
    rw [if_neg (by norm_num), min_eq_left]
    all_goals
      simp only [Dyadic.pattern, hsig, lt_irrefl, if_false] at hlt ⊢
      omega

end Stencil.Decimal
