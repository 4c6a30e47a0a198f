import Stencil.Proofs.Decimal.Rounding
/-!
Finite binary64 numbers and their bit patterns: a finite number is the pair of its sign and the
pattern of its magnitude, and every such pair is a finite number.
-/

namespace Stencil.Decimal

open Float.Model Float.Model.UnpackedFloat

section Components

variable (b : BitVec 64)

theorem unpackMantissa_toNat :
    (@unpackMantissa Format.binary64 b).toNat = b.toNat % 2 ^ 52 := by
  simp [unpackMantissa, BitVec.extractLsb_toNat]

theorem unpackExponent_toNat :
    (@unpackExponent Format.binary64 b).toNat = b.toNat / 2 ^ 52 % 2048 := by
  simp [unpackExponent, BitVec.extractLsb_toNat, Nat.shiftRight_eq_div_pow]

theorem signBit_toNat :
    (Sign.ofBitVec (@unpackSign Format.binary64 b)).toBitVec.toNat = b.toNat / 2 ^ 63 := by
  have hb := b.isLt
  have hs : (@unpackSign Format.binary64 b).toNat = b.toNat / 2 ^ 63 := by
    change (BitVec.extractLsb 63 63 b).toNat = _
    rw [BitVec.extractLsb_toNat, Nat.shiftRight_eq_div_pow]
    norm_num at hb ⊢
    omega
  simp only [Sign.ofBitVec]
  split
  · next h =>
    rw [← hs, h]
    rfl
  · next h =>
    have hne : (@unpackSign Format.binary64 b).toNat ≠ 0 := fun h' ↦
      h (BitVec.eq_of_toNat_eq (by simpa using h'))
    have hlt := (@unpackSign Format.binary64 b).isLt
    have hone : (1#1).toNat = 1 := rfl
    rw [← hs, Sign.toBitVec]
    simp only [BitVec.toNat_ofNat]
    omega

end Components

theorem packComponents_toNat (s : Sign) (e : BitVec 11) (m : BitVec 52) :
    (packComponents Format.binary64 s e m).toNat =
      s.toBitVec.toNat * 2 ^ 63 + e.toNat * 2 ^ 52 + m.toNat := by
  simp only [packComponents, BitVec.toNat_append]
  rw [← Nat.shiftLeft_add_eq_or_of_lt m.isLt, ← Nat.shiftLeft_add_eq_or_of_lt e.isLt,
    Nat.shiftLeft_eq, Nat.shiftLeft_eq]
  ring

theorem leading_pos (m : BitVec 52) : 0 < (1#1 ++ m).toNat := by
  rw [BitVec.toNat_append, ← Nat.shiftLeft_add_eq_or_of_lt m.isLt, Nat.shiftLeft_eq]
  exact Nat.add_pos_left (by decide) _

theorem unpack_eq (b : BitVec 64) : UnpackedFloat.unpack Format.binary64 b =
    if @unpackExponent Format.binary64 b = -1#_ then
      if @unpackMantissa Format.binary64 b = 0#_ then .infinity (Sign.ofBitVec (@unpackSign Format.binary64 b))
      else .notANumber
    else if @unpackExponent Format.binary64 b = 0#_ then
      if h : @unpackMantissa Format.binary64 b = 0#_ then .zero (Sign.ofBitVec (@unpackSign Format.binary64 b))
      else .finite (Sign.ofBitVec (@unpackSign Format.binary64 b)) (@unpackMantissa Format.binary64 b).toNat
        (((@unpackExponent Format.binary64 b).toNat : ℤ) - 1075 + 1)
        (Nat.pos_of_ne_zero fun h' ↦ h (BitVec.eq_of_toNat_eq h'))
    else .finite (Sign.ofBitVec (@unpackSign Format.binary64 b)) (1#1 ++ @unpackMantissa Format.binary64 b).toNat
      (((@unpackExponent Format.binary64 b).toNat : ℤ) - 1075)
      (leading_pos (@unpackMantissa Format.binary64 b)) := rfl

theorem pack_zero (s : Sign) : UnpackedFloat.pack Format.binary64 (.zero s) = packedZero Format.binary64 s := rfl

theorem pack_finite (s : Sign) {m : ℕ} (e : ℤ) (hm : 0 < m) : UnpackedFloat.pack Format.binary64 (.finite s m e hm) =
    if 2 ^ 11 ≤ (e + 1023 + 52).toNat + 1 then packedInfinity Format.binary64 s
    else if m.log2 + 1 = 53 then
      packComponents Format.binary64 s (BitVec.ofNat 11 (e + 1023 + 52).toNat) (BitVec.ofNat 52 m)
    else packComponents Format.binary64 s 0#11 (BitVec.ofNat 52 m) := rfl

theorem pack_unpack {b : BitVec 64} (h : b.toNat / 2 ^ 52 % 2048 ≠ 2047) :
    UnpackedFloat.pack Format.binary64 (UnpackedFloat.unpack Format.binary64 b) = b := by
  have hb : b.toNat < 2 ^ 64 := b.isLt
  have hm := unpackMantissa_toNat b
  have he := unpackExponent_toNat b
  have hs := signBit_toNat b
  have hall : (-1#11 : BitVec 11).toNat = 2047 := rfl
  have hne : ¬ @unpackExponent Format.binary64 b = -1#_ := by
    intro h'
    rw [h', hall] at he
    omega
  rw [unpack_eq, if_neg hne]
  by_cases h0 : @unpackExponent Format.binary64 b = 0#_
  · have he0 : b.toNat / 2 ^ 52 % 2048 = 0 := by rw [← he, h0]; rfl
    rw [if_pos h0]
    by_cases hm0 : @unpackMantissa Format.binary64 b = 0#_
    · have hm1 : b.toNat % 2 ^ 52 = 0 := by rw [← hm, hm0]; rfl
      refine BitVec.eq_of_toNat_eq ?_
      have hz : (0 : BitVec 11).toNat = 0 ∧ (0 : BitVec 52).toNat = 0 := ⟨rfl, rfl⟩
      rw [dif_pos hm0, pack_zero, packedZero, packComponents_toNat, hs, hz.1, hz.2]
      omega
    · have hlog : ¬ (@unpackMantissa Format.binary64 b).toNat.log2 + 1 = 53 := by
        have hlt := (@unpackMantissa Format.binary64 b).isLt
        have hpos : (@unpackMantissa Format.binary64 b).toNat ≠ 0 := fun h' ↦
          hm0 (BitVec.eq_of_toNat_eq (by simpa using h'))
        have := (Nat.log2_lt hpos).2 hlt
        simp only [Format.binary64] at this
        omega
      refine BitVec.eq_of_toNat_eq ?_
      have hexp : ¬ 2 ^ 11 ≤
          (((@unpackExponent Format.binary64 b).toNat : ℤ) - 1075 + 1 + 1023 + 52).toNat + 1 := by
        rw [he, he0]
        decide
      rw [dif_neg hm0, pack_finite, if_neg hexp, if_neg hlog, packComponents_toNat, hs]
      simp only [BitVec.toNat_ofNat, hm]
      omega
  · have he0 : b.toNat / 2 ^ 52 % 2048 ≠ 0 := by
      rw [← he]
      exact fun h' ↦ h0 (BitVec.eq_of_toNat_eq (by simpa using h'))
    have hsig : (1#1 ++ @unpackMantissa Format.binary64 b).toNat = 2 ^ 52 + b.toNat % 2 ^ 52 := by
      rw [BitVec.toNat_append, ← Nat.shiftLeft_add_eq_or_of_lt (BitVec.isLt _), hm, Nat.shiftLeft_eq]
      rfl
    have hlog : (2 ^ 52 + b.toNat % 2 ^ 52).log2 + 1 = 53 := by
      have : (2 ^ 52 + b.toNat % 2 ^ 52).log2 = 52 := by
        rw [Nat.log2_eq_iff (by omega)]
        omega
      omega
    have hexp : (((@unpackExponent Format.binary64 b).toNat : ℤ) - 1075 + 1023 + 52).toNat =
        b.toNat / 2 ^ 52 % 2048 := by
      rw [he]
      omega
    refine BitVec.eq_of_toNat_eq ?_
    rw [if_neg h0, pack_finite, hexp, hsig, if_neg (show ¬ 2 ^ 11 ≤ b.toNat / 2 ^ 52 % 2048 + 1 by omega),
      if_pos hlog, packComponents_toNat, hs]
    simp only [BitVec.toNat_ofNat]
    omega

theorem float_ext {x y : Float} (h : x.toBits = y.toBits) : x = y := by
  obtain ⟨⟨a, ha⟩⟩ := x
  obtain ⟨⟨b, hb⟩⟩ := y
  obtain rfl : a = b := h
  rfl

theorem toBits_ofBits {b : UInt64} (h : b.toNat / 2 ^ 52 % 2048 ≠ 2047) :
    (Float.ofBits b).toBits = b := by
  change UInt64.ofBitVec (UnpackedFloat.pack Format.binary64
    (UnpackedFloat.unpack Format.binary64 b.toBitVec)) = b
  rw [pack_unpack h]

theorem isFinite_iff (x : Float) : x.isFinite = true ↔ x.toBits.toNat / 2 ^ 52 % 2048 ≠ 2047 := by
  have he := unpackExponent_toNat x.toBits.toBitVec
  have hall : (-1#11 : BitVec 11).toNat = 2047 := rfl
  have hiff : @unpackExponent Format.binary64 x.toBits.toBitVec = -1#_ ↔
      x.toBits.toNat / 2 ^ 52 % 2048 = 2047 := by
    constructor
    · intro h
      rw [h, hall] at he
      exact he.symm
    · intro h
      exact BitVec.eq_of_toNat_eq (he.trans (h.trans hall.symm))
  change (UnpackedFloat.unpack Format.binary64 x.toBits.toBitVec).isFinite = true ↔ _
  rw [← not_iff_not, not_ne_iff, ← hiff, unpack_eq]
  by_cases h : @unpackExponent Format.binary64 x.toBits.toBitVec = -1#_
  · rw [if_pos h, iff_true_right h]
    by_cases hm : @unpackMantissa Format.binary64 x.toBits.toBitVec = 0#_
    · rw [if_pos hm]
      exact Bool.false_ne_true
    · rw [if_neg hm]
      exact Bool.false_ne_true
  · rw [if_neg h, iff_false_right h, not_not]
    by_cases h0 : @unpackExponent Format.binary64 x.toBits.toBitVec = 0#_
    · rw [if_pos h0]
      by_cases hm : @unpackMantissa Format.binary64 x.toBits.toBitVec = 0#_
      · rw [dif_pos hm]
        rfl
      · rw [dif_neg hm]
        rfl
    · rw [if_neg h0]
      rfl

theorem Dyadic.ofBits?_spec {n : ℕ} (hn : n < 2 ^ 64) (h : n / 2 ^ 52 % 2048 ≠ 2047) :
    ∃ d, Dyadic.ofBits? n = some d ∧ d.Canonical ∧
      (if d.negative then 2 ^ 63 else 0) + d.pattern = n := by
  by_cases h0 : n / 2 ^ 52 % 2048 = 0
  · have hd : Dyadic.ofBits? n = some ⟨decide (2 ^ 63 ≤ n), n % 2 ^ 52, -1074⟩ := by
      unfold Dyadic.ofBits?
      exact (if_neg h).trans (if_pos h0)
    refine ⟨_, hd, ⟨?_, le_rfl, ?_, .inl rfl⟩, ?_⟩ <;> simp only [Dyadic.pattern]
    · omega
    · omega
    · rw [if_pos (show n % 2 ^ 52 < 2 ^ 52 by omega)]
      by_cases hs : 2 ^ 63 ≤ n
      · simp only [hs, decide_true, if_true]
        omega
      · simp only [hs, decide_false, Bool.false_eq_true, if_false]
        omega
  · have hd : Dyadic.ofBits? n = some
        ⟨decide (2 ^ 63 ≤ n), 2 ^ 52 + n % 2 ^ 52, ((n / 2 ^ 52 % 2048 : ℕ) : ℤ) - 1075⟩ := by
      unfold Dyadic.ofBits?
      exact (if_neg h).trans (if_neg h0)
    refine ⟨_, hd, ⟨?_, ?_, ?_, .inr ?_⟩, ?_⟩ <;> simp only [Dyadic.pattern]
    · omega
    · omega
    · omega
    · omega
    · rw [if_neg (show ¬ 2 ^ 52 + n % 2 ^ 52 < 2 ^ 52 by omega)]
      by_cases hs : 2 ^ 63 ≤ n
      · simp only [hs, decide_true, if_true]
        omega
      · simp only [hs, decide_false, Bool.false_eq_true, if_false]
        omega

theorem exists_dyadic {x : Float} (h : x.isFinite = true) :
    ∃ d, Dyadic.ofFloat? x = some d ∧ d.Canonical ∧ signed d.negative d.pattern = x := by
  rw [isFinite_iff] at h
  obtain ⟨d, hd, hcan, hbits⟩ := Dyadic.ofBits?_spec x.toBits.toNat_lt h
  refine ⟨d, hd, hcan, float_ext ?_⟩
  have hword : UInt64.ofNat ((if d.negative then twoTo 63 else 0) + d.pattern) = x.toBits := by
    rw [twoTo_eq, hbits]
    exact UInt64.ofNat_toNat
  rw [signed, hword, toBits_ofBits h]

theorem signed_isFinite (negative : Bool) {p : ℕ} (h : p < infinityBits) :
    (signed negative p).isFinite = true := by
  have hinf : infinityBits = 2047 * 2 ^ 52 := rfl
  have hp : ((if negative then twoTo 63 else 0) + p) < 2 ^ 64 := by
    rw [twoTo_eq]
    split <;> omega
  have hexp : (UInt64.ofNat ((if negative then twoTo 63 else 0) + p)).toNat / 2 ^ 52 % 2048 ≠ 2047 := by
    rw [UInt64.toNat_ofNat_of_lt' (by simpa using hp), twoTo_eq]
    split <;> omega
  rw [isFinite_iff, signed, toBits_ofBits hexp]
  exact hexp

end Stencil.Decimal
