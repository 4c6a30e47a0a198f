import Stencil.Proofs.Decimal.Pattern
import Stencil.Decimal.Layout
/-!
Whole numbers as binary64 numbers. A whole number becomes the nearest one that has no more than 53 bits before its
zeros; the digits that are shown are those of the nearest one.
-/

namespace Stencil.Decimal

/-- Whole numbers that binary64 numbers stand for, as far as those go. -/
def Representable (n : ℕ) : Prop := ∃ m k, m < 2 ^ 53 ∧ n = m * 2 ^ k

/-- A whole number with all but its first 53 bits rounded away. -/
def rounded (n : ℕ) : ℕ := roundDiv n (2 ^ (n.log2 - 52)) * 2 ^ (n.log2 - 52)

variable {num den n u v : ℕ}

theorem roundDiv_one (n : ℕ) : roundDiv n 1 = n := by
  apply roundDiv_eq (by decide) <;> omega

theorem roundDiv_near (h : 0 < den) (num : ℕ) :
    2 * (roundDiv num den * den) ≤ 2 * num + den ∧ 2 * num ≤ 2 * (roundDiv num den * den) + den := by
  have hsplit := Nat.div_add_mod num den
  have hmod := Nat.mod_lt num h
  rw [Nat.mul_comm den] at hsplit
  have hstep : (num / den + 1) * den = num / den * den + den := Nat.succ_mul _ _
  simp only [roundDiv]
  split_ifs with hbelow habove
  · omega
  · omega
  · rcases Nat.mod_two_eq_zero_or_one (num / den) with heven | hodd
    · rw [heven, Nat.add_zero]
      omega
    · rw [hodd]
      omega

theorem le_roundDiv (h : 0 < den) {k : ℕ} (hk : k * den ≤ num) : k ≤ roundDiv num den := by
  have hdiv := (Nat.le_div_iff_mul_le h).2 hk
  simp only [roundDiv]
  split_ifs <;> omega

theorem roundDiv_le_of_le_mul (h : 0 < den) {k : ℕ} (hk : num ≤ k * den) : roundDiv num den ≤ k := by
  have hnear := (roundDiv_near h num).1
  by_contra hover
  have hsucc : (k + 1) * den ≤ roundDiv num den * den := Nat.mul_le_mul_right _ (not_le.1 hover)
  rw [Nat.succ_mul] at hsucc
  omega

theorem abs_roundDiv_le (h : 0 < den) (num k : ℕ) :
    |((roundDiv num den * den : ℕ) : ℤ) - num| ≤ |((k * den : ℕ) : ℤ) - num| := by
  obtain ⟨hlow, hhigh⟩ := roundDiv_near h num
  rcases lt_trichotomy k (roundDiv num den) with hk | rfl | hk
  · have hstep : (k + 1) * den ≤ roundDiv num den * den := Nat.mul_le_mul_right _ hk
    rw [Nat.succ_mul] at hstep
    rw [abs_le]
    have := neg_le_abs (((k * den : ℕ) : ℤ) - num)
    omega
  · exact le_rfl
  · have hstep : (roundDiv num den + 1) * den ≤ k * den := Nat.mul_le_mul_right _ hk
    rw [Nat.succ_mul] at hstep
    rw [abs_le]
    have := le_abs_self (((k * den : ℕ) : ℤ) - num)
    omega

/-! ### The nearest of those that have few bits -/

theorem log2_bounds (h : n ≠ 0) : 2 ^ n.log2 ≤ n ∧ n < 2 ^ (n.log2 + 1) := (Nat.log2_eq_iff h).1 rfl

theorem rounded_of_small (h : n.log2 ≤ 52) : rounded n = n := by
  rw [rounded, Nat.sub_eq_zero_of_le h, Nat.pow_zero, Nat.mul_one, roundDiv_one]

theorem representable_of_small (h : n.log2 ≤ 52) : Representable n := by
  refine ⟨n, 0, ?_, by rw [Nat.pow_zero, Nat.mul_one]⟩
  rcases Nat.eq_zero_or_pos n with rfl | hn
  · decide
  · exact (log2_bounds hn.ne').2.trans_le (Nat.pow_le_pow_right (by decide) (by omega))

theorem roundDiv_bits (h : 52 ≤ n.log2) : 2 ^ 52 ≤ roundDiv n (2 ^ (n.log2 - 52)) ∧ roundDiv n (2 ^ (n.log2 - 52)) ≤ 2 ^ 53 := by
  have hn : n ≠ 0 := by
    rintro rfl
    exact absurd h (by decide)
  obtain ⟨hlow, hhigh⟩ := log2_bounds hn
  have hpos : 0 < 2 ^ (n.log2 - 52) := Nat.two_pow_pos _
  refine ⟨le_roundDiv hpos ?_, roundDiv_le_of_le_mul hpos ?_⟩
  · rwa [← Nat.pow_add, Nat.add_sub_cancel' h]
  · rw [← Nat.pow_add, show 53 + (n.log2 - 52) = n.log2 + 1 by omega]
    exact hhigh.le

theorem representable_rounded (n : ℕ) : Representable (rounded n) := by
  rcases Nat.lt_or_ge n.log2 52 with hsmall | hlarge
  · rw [rounded_of_small hsmall.le]
    exact representable_of_small hsmall.le
  · rcases (roundDiv_bits hlarge).2.lt_or_eq with hlt | heq
    · exact ⟨_, _, hlt, rfl⟩
    · refine ⟨1, 53 + (n.log2 - 52), by decide, ?_⟩
      rw [rounded, heq, Nat.one_mul, Nat.pow_add]

/-- A number of few bits that is no less than the power of two below `n` lies on the grid of `n`. -/
theorem Representable.on_grid (h : Representable u) {e : ℕ} (hu : 2 ^ (52 + e) ≤ u) : ∃ k, u = k * 2 ^ e := by
  obtain ⟨m, k, hm, rfl⟩ := h
  have hexponent : e ≤ k := by
    by_contra hlt
    have hpow : 2 ^ (k + 1) ≤ 2 ^ e := Nat.pow_le_pow_right (by decide) (by omega)
    have hmul : (m + 1) * 2 ^ k ≤ 2 ^ 53 * 2 ^ k := Nat.mul_le_mul_right _ hm
    have hpos : 0 < 2 ^ k := Nat.two_pow_pos _
    rw [Nat.succ_mul] at hmul
    rw [Nat.pow_succ] at hpow
    rw [Nat.pow_add] at hu
    omega
  exact ⟨m * 2 ^ (k - e), by rw [Nat.mul_assoc, ← Nat.pow_add, Nat.sub_add_cancel hexponent]⟩

theorem abs_rounded_le (n : ℕ) (h : Representable u) : |(rounded n : ℤ) - n| ≤ |(u : ℤ) - n| := by
  rcases Nat.lt_or_ge n.log2 52 with hsmall | hlarge
  · rw [rounded_of_small hsmall.le, sub_self, abs_zero]
    exact abs_nonneg _
  have hn : n ≠ 0 := by
    rintro rfl
    exact absurd hlarge (by decide)
  have hpos : 0 < 2 ^ (n.log2 - 52) := Nat.two_pow_pos _
  have hpower : 2 ^ 52 * 2 ^ (n.log2 - 52) = 2 ^ n.log2 := by rw [← Nat.pow_add, Nat.add_sub_cancel' hlarge]
  rcases Nat.lt_or_ge u (2 ^ n.log2) with hbelow | habove
  · -- the power of two below `n` is on the grid, and nearer than anything below it
    have hgrid := abs_roundDiv_le hpos n (2 ^ 52)
    have hlow := (log2_bounds hn).1
    rw [hpower] at hgrid
    refine hgrid.trans ?_
    rw [abs_of_nonpos (by omega), abs_of_nonpos (by omega)]
    omega
  · obtain ⟨k, rfl⟩ := h.on_grid (e := n.log2 - 52) (by rwa [Nat.add_sub_cancel' hlarge])
    exact abs_roundDiv_le hpos n k

theorem rounded_eq_iff : rounded n = n ↔ Representable n := by
  constructor
  · intro h
    rw [← h]
    exact representable_rounded n
  · intro h
    have hnear := abs_rounded_le n h
    rw [sub_self, abs_zero, abs_nonpos_iff] at hnear
    omega

theorem rounded_ne_zero (h : n ≠ 0) : rounded n ≠ 0 := by
  intro hzero
  have hone := abs_rounded_le n (u := 1) ⟨1, 0, by decide, rfl⟩
  rw [hzero, abs_of_nonpos (by omega), abs_of_nonpos (by omega)] at hone
  omega

/-! ### As a binary64 number -/

/-- The 53 bits of a whole number, on the grid that begins with its first one. -/
def leading (n : ℕ) : ℕ := roundDiv (n * 2 ^ (52 - n.log2)) (2 ^ (n.log2 - 52))

theorem leading_bounds (h : n ≠ 0) : 2 ^ 52 ≤ leading n ∧ leading n ≤ 2 ^ 53 := by
  rcases Nat.lt_or_ge n.log2 52 with hsmall | hlarge
  · obtain ⟨hlow, hhigh⟩ := log2_bounds h
    have hscale (k : ℕ) : 2 ^ (n.log2 + k) * 2 ^ (52 - n.log2) = 2 ^ (52 + k) := by
      rw [← Nat.pow_add]
      congr 1
      omega
    rw [leading, Nat.sub_eq_zero_of_le hsmall.le, Nat.pow_zero, roundDiv_one, ← hscale 0, ← hscale 1]
    exact ⟨Nat.mul_le_mul_right _ hlow, Nat.mul_le_mul_right _ hhigh.le⟩
  · rw [leading, Nat.sub_eq_zero_of_le hlarge, Nat.pow_zero, Nat.mul_one]
    exact roundDiv_bits hlarge

theorem leading_mul (n : ℕ) : leading n * 2 ^ (n.log2 - 52) = rounded n * 2 ^ (52 - n.log2) := by
  rcases Nat.lt_or_ge n.log2 52 with hsmall | hlarge
  · rw [leading, Nat.sub_eq_zero_of_le hsmall.le, Nat.pow_zero, roundDiv_one, Nat.mul_one, rounded_of_small hsmall.le]
  · rw [leading, rounded, Nat.sub_eq_zero_of_le hlarge, Nat.pow_zero, Nat.mul_one, Nat.mul_one]

theorem normalExponent_whole (h : n ≠ 0) : normalExponent n 1 = n.log2 - 52 := by
  obtain ⟨hlow, hhigh⟩ := log2_bounds h
  apply normalExponent_unique h one_pos
  · rw [sub_add_cancel, Nat.cast_one, div_one, zpow_natCast]
    exact_mod_cast hlow
  · rw [show (n.log2 : ℤ) - 52 + 53 = ((n.log2 + 1 : ℕ) : ℤ) by push_cast; ring, Nat.cast_one, div_one, zpow_natCast]
    exact_mod_cast hhigh

theorem magnitudeBits_whole (h : n ≠ 0) (hsize : n.log2 < 64) :
    magnitudeBits n 1 = (n.log2 + 1023) * 2 ^ 52 + (leading n - 2 ^ 52) := by
  obtain ⟨hlow, hhigh⟩ := leading_bounds h
  have hinf : infinityBits = 2047 * 2 ^ 52 := rfl
  have hexponent : max (normalExponent n 1) (-1074) = n.log2 - 52 := by
    rw [normalExponent_whole h]
    omega
  have hdown : (-((n.log2 : ℤ) - 52)).toNat = 52 - n.log2 := by omega
  have hup : ((n.log2 : ℤ) - 52).toNat = n.log2 - 52 := by omega
  have hbiased : ((n.log2 : ℤ) - 52 + 1075).toNat = n.log2 + 1023 := by omega
  have hleading : roundDiv (n * 2 ^ (52 - n.log2)) (1 * 2 ^ (n.log2 - 52)) = leading n := by rw [Nat.one_mul, leading]
  rw [magnitudeBits_eq h]
  simp only [hexponent, hdown, hup, hbiased, twoTo_eq, hleading]
  rw [if_neg (by omega), hinf, min_eq_left (by omega)]

/-- A number whose pattern has 53 bits behind an exponent has these bits, also where they are one too many. -/
theorem Dyadic.Canonical.of_pattern {d : Dyadic} (hd : d.Canonical) {e m : ℕ} (he : 1 ≤ e) (hlow : 2 ^ 52 ≤ m)
    (hhigh : m ≤ 2 ^ 53) (h : d.pattern = e * 2 ^ 52 + (m - 2 ^ 52)) :
    d.significand = m ∧ d.exponent = e - 1075 ∨ m = 2 ^ 53 ∧ d.significand = 2 ^ 52 ∧ d.exponent = e - 1074 := by
  have hsmall := hd.small
  have hleast := hd.least
  simp only [Dyadic.pattern] at h
  split at h
  · omega
  · rcases hhigh.lt_or_eq with hlt | heq
    · left
      omega
    · right
      omega

theorem toBits_ofInt {n : ℤ} (h : n ≠ 0) (hsize : n.natAbs.log2 < 64) : (ofInt n).toBits.toNat =
    (if n < 0 then 2 ^ 63 else 0) + ((n.natAbs.log2 + 1023) * 2 ^ 52 + (leading n.natAbs - 2 ^ 52)) := by
  obtain ⟨hlow, hhigh⟩ := leading_bounds (Int.natAbs_ne_zero.2 h)
  have hword : (UInt64.ofNat ((if decide (n < 0) = true then twoTo 63 else 0) + magnitudeBits n.natAbs 1)).toNat =
      (if n < 0 then 2 ^ 63 else 0) + ((n.natAbs.log2 + 1023) * 2 ^ 52 + (leading n.natAbs - 2 ^ 52)) := by
    rw [magnitudeBits_whole (Int.natAbs_ne_zero.2 h) hsize]
    simp only [decide_eq_true_eq, twoTo_eq]
    refine UInt64.toNat_ofNat_of_lt' ?_
    change _ < 2 ^ 64
    split <;> omega
  rw [ofInt, signed, toBits_ofBits, hword]
  rw [hword]
  split <;> omega

/-- A whole number of 64 bits becomes the binary64 number of its rounded magnitude. -/
theorem ofFloat?_ofInt {n : ℤ} (hsize : n.natAbs.log2 < 64) :
    ∃ d, Dyadic.ofFloat? (ofInt n) = some d ∧ d.numerator = rounded n.natAbs * d.denominator := by
  by_cases hzero : n = 0
  · subst hzero
    have hnone : Dyadic.ofFloat? (ofInt 0) = some ⟨false, 0, -1074⟩ := by decide +kernel
    refine ⟨_, hnone, ?_⟩
    rw [Int.natAbs_zero, rounded_of_small (by decide), Nat.zero_mul]
    exact Nat.zero_mul _
  have hbits := toBits_ofInt hzero hsize
  obtain ⟨hlow, hhigh⟩ := leading_bounds (Int.natAbs_ne_zero.2 hzero)
  have hfinite : (ofInt n).toBits.toNat / 2 ^ 52 % 2048 ≠ 2047 := by
    rw [hbits]
    split <;> omega
  obtain ⟨d, hd, hcanonical, hpattern⟩ := Dyadic.ofBits?_spec (ofInt n).toBits.toNat_lt hfinite
  have hmagnitude : d.pattern = (n.natAbs.log2 + 1023) * 2 ^ 52 + (leading n.natAbs - 2 ^ 52) := by
    have hlt := d.pattern_lt hcanonical
    have hinf : infinityBits = 2047 * 2 ^ 52 := rfl
    rw [hbits] at hpattern
    split at hpattern <;> split at hpattern <;> omega
  have hmul := leading_mul n.natAbs
  refine ⟨d, hd, ?_⟩
  rw [Dyadic.numerator, Dyadic.denominator, twoTo_eq, twoTo_eq]
  rcases hcanonical.of_pattern (by omega) hlow hhigh hmagnitude with ⟨hsignificand, hexponent⟩ | ⟨hfull, hsignificand, hexponent⟩
  · rw [hsignificand, show d.exponent.toNat = n.natAbs.log2 - 52 by omega, show (-d.exponent).toNat = 52 - n.natAbs.log2 by omega]
    exact hmul
  · -- one bit too many, so that the number is a power of two
    rw [hfull] at hmul
    rw [hsignificand]
    rcases Nat.lt_or_ge n.natAbs.log2 52 with hsmall | hlarge
    · have hhalf : rounded n.natAbs * 2 ^ (52 - n.natAbs.log2) = rounded n.natAbs * 2 ^ (51 - n.natAbs.log2) * 2 := by
        rw [Nat.mul_assoc, ← Nat.pow_succ, show (51 - n.natAbs.log2).succ = 52 - n.natAbs.log2 by omega]
      rw [show n.natAbs.log2 - 52 = 0 by omega, hhalf] at hmul
      rw [show d.exponent.toNat = 0 by omega, show (-d.exponent).toNat = 51 - n.natAbs.log2 by omega]
      omega
    · rw [show 52 - n.natAbs.log2 = 0 by omega] at hmul
      rw [show d.exponent.toNat = n.natAbs.log2 - 52 + 1 by omega, show (-d.exponent).toNat = 0 by omega, Nat.pow_succ]
      omega

theorem natText_length_pos (n : ℕ) : 1 ≤ (natText n).length := Nat.length_toDigits_pos

/-- Without places a whole number shows the digits of its rounded magnitude. -/
theorem fixed_ofInt {n : ℤ} (hsize : n.natAbs.log2 < 64) : fixed 0 (ofInt n) = (natText (rounded n.natAbs), []) := by
  obtain ⟨d, hd, hnumerator⟩ := ofFloat?_ofInt hsize
  have hpos : 0 < d.denominator := twoTo_pos _
  have hunits : roundDiv (d.numerator * tenTo 0) d.denominator = rounded n.natAbs := by
    rw [tenTo_zero, Nat.mul_one, hnumerator]
    apply roundDiv_eq hpos <;> rw [Nat.mul_assoc] <;> omega
  have hpad : padZeros (0 + 1) (natText (rounded n.natAbs)) = natText (rounded n.natAbs) := by
    rw [padZeros, Nat.sub_eq_zero_of_le (natText_length_pos _)]
    rfl
  rw [fixed, hd]
  simp only [fixedMagnitude, hunits, hpad, Nat.sub_zero, List.take_length, List.drop_length]

/-! ### Signs -/

section Signs

open Float.Model Float.Model.UnpackedFloat

theorem lt_zero_iff_unpacked (x : Float) :
    x < 0 ↔ (UnpackedFloat.unpack Format.binary64 x.toBits.toBitVec).lt (.zero .positive) = true := by
  have hzero : (0 : Float).toModel.unpack = .zero .positive := rfl
  change Float.lt x 0 = true ↔ _
  rw [Float.lt, decide_eq_true_iff, ← hzero]
  exact Iff.rfl

theorem ofBitVec_unpackSign (b : BitVec 64) :
    Sign.ofBitVec (@unpackSign Format.binary64 b) = if 2 ^ 63 ≤ b.toNat then .negative else .positive := by
  have hb := b.isLt
  have hsign := signBit_toNat b
  cases hs : Sign.ofBitVec (@unpackSign Format.binary64 b) with
  | negative =>
    have hone : (Sign.negative).toBitVec.toNat = 1 := rfl
    rw [hs, hone] at hsign
    rw [if_pos (by omega)]
  | positive =>
    have hnull : (Sign.positive).toBitVec.toNat = 0 := rfl
    rw [hs, hnull] at hsign
    rw [if_neg (by omega)]

/-- A finite number other than zero is less than zero when its sign is set. -/
theorem lt_zero_iff {x : Float} (hfinite : x.toBits.toNat / 2 ^ 52 % 2048 ≠ 2047) (hnormal : x.toBits.toNat / 2 ^ 52 % 2048 ≠ 0) :
    x < 0 ↔ 2 ^ 63 ≤ x.toBits.toNat := by
  have hexponent := unpackExponent_toNat x.toBits.toBitVec
  have hall : (-1#11 : BitVec 11).toNat = 2047 := rfl
  have hnot : ¬ @unpackExponent Format.binary64 x.toBits.toBitVec = -1#_ := by
    intro h
    rw [h, hall] at hexponent
    exact hfinite hexponent.symm
  have hpos : ¬ @unpackExponent Format.binary64 x.toBits.toBitVec = 0#_ := by
    intro h
    rw [h] at hexponent
    exact hnormal hexponent.symm
  rw [lt_zero_iff_unpacked, unpack_eq, if_neg hnot, if_neg hpos, ofBitVec_unpackSign]
  by_cases hsign : 2 ^ 63 ≤ x.toBits.toNat
  · have hbits : 2 ^ 63 ≤ x.toBits.toBitVec.toNat := hsign
    rw [if_pos hbits]
    exact iff_of_true rfl hsign
  · have hbits : ¬ 2 ^ 63 ≤ x.toBits.toBitVec.toNat := hsign
    rw [if_neg hbits]
    exact iff_of_false Bool.false_ne_true hsign

end Signs

theorem ofInt_lt_zero {n : ℤ} (hsize : n.natAbs.log2 < 64) : ofInt n < 0 ↔ n < 0 := by
  by_cases hzero : n = 0
  · subst hzero
    have hnot : ¬ ofInt 0 < 0 := by decide +kernel
    exact iff_of_false hnot (lt_irrefl 0)
  have hbits := toBits_ofInt hzero hsize
  obtain ⟨hlow, hhigh⟩ := leading_bounds (Int.natAbs_ne_zero.2 hzero)
  rw [lt_zero_iff]
  all_goals
    rw [hbits]
    split <;> omega

end Stencil.Decimal
