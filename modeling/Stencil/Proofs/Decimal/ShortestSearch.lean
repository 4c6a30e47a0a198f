import Stencil.Proofs.Decimal.Rounding
/-!
The search for the shortest decimal of a binary64 number ends with a decimal that the number
attracts: the grids it goes through become fine enough before it gives up.
-/

namespace Stencil.Decimal

def Shortest.value (t : Shortest) : ℚ := t.digits * 10 ^ t.exponent

namespace Interval

theorem cmp_scale (a c : ℕ) (e s : ℤ) :
    ((a * twoTo e.toNat * tenTo (-s).toNat : ℕ) : ℚ) =
        a / 4 * (4 * 2 ^ e.toNat * 10 ^ (-s).toNat) ∧
      ((c * tenTo s.toNat * (4 * twoTo (-e).toNat) : ℕ) : ℚ) =
        c * 10 ^ s * 2 ^ (-e) * (4 * 2 ^ e.toNat * 10 ^ (-s).toNat) := by
  rw [ten_zpow_split s, two_zpow_split (-e), neg_neg, twoTo_eq, twoTo_eq, tenTo_eq, tenTo_eq]
  push_cast
  constructor
  · ring
  · field_simp

theorem le_point (a c : ℕ) (e s : ℤ) :
    a * twoTo e.toNat * tenTo (-s).toNat ≤ c * tenTo s.toNat * (4 * twoTo (-e).toNat) ↔
      (a : ℚ) / 4 ≤ c * 10 ^ s * 2 ^ (-e) := by
  obtain ⟨h₁, h₂⟩ := cmp_scale a c e s
  rw [← Nat.cast_le (α := ℚ), h₁, h₂, mul_le_mul_iff_left₀ (by positivity)]

theorem point_le (a c : ℕ) (e s : ℤ) :
    c * tenTo s.toNat * (4 * twoTo (-e).toNat) ≤ a * twoTo e.toNat * tenTo (-s).toNat ↔
      (c : ℚ) * 10 ^ s * 2 ^ (-e) ≤ a / 4 := by
  obtain ⟨h₁, h₂⟩ := cmp_scale a c e s
  rw [← Nat.cast_le (α := ℚ), h₁, h₂, mul_le_mul_iff_left₀ (by positivity)]

theorem low_cast {d : Dyadic} (hpos : 0 < d.significand) :
    ((4 * d.significand -
      (if d.significand = twoTo 52 && decide (-1074 < d.exponent) then 1 else 2) : ℕ) : ℚ) / 4 =
      d.significand - d.reach := by
  have hb : (if d.significand = twoTo 52 && decide (-1074 < d.exponent) then 1 else 2 : ℕ) ≤
      4 * d.significand := by split <;> omega
  rw [Nat.cast_sub hb, Dyadic.reach, twoTo_eq]
  by_cases h : d.significand = 2 ^ 52 ∧ -1074 < d.exponent
  · rw [if_pos h, if_pos (by simp [h.1, h.2])]
    push_cast
    ring
  · rw [if_neg h, if_neg (by simpa using h)]
    push_cast
    ring

theorem contains_of_closed {i : Interval} (h : i.closed = true) (c : ℕ) (s : ℤ) :
    i.contains c s = true ↔ i.low * tenTo (-s).toNat ≤ c * tenTo s.toNat * i.denominator ∧
      c * tenTo s.toNat * i.denominator ≤ i.high * tenTo (-s).toNat := by
  simp [contains, h]

theorem contains_of_open {i : Interval} (h : i.closed = false) (c : ℕ) (s : ℤ) :
    i.contains c s = true ↔ i.low * tenTo (-s).toNat < c * tenTo s.toNat * i.denominator ∧
      c * tenTo s.toNat * i.denominator < i.high * tenTo (-s).toNat := by
  simp [contains, h]

section Ends

variable {d : Dyadic} (hpos : 0 < d.significand) (c : ℕ) (s : ℤ)
include hpos

theorem low_le_point : (ofDyadic d).low * tenTo (-s).toNat ≤ c * tenTo s.toNat * (ofDyadic d).denominator ↔
    (d.significand : ℚ) - d.reach ≤ c * 10 ^ s * 2 ^ (-d.exponent) := by
  rw [← low_cast hpos]
  exact le_point _ c d.exponent s

theorem point_le_low : c * tenTo s.toNat * (ofDyadic d).denominator ≤ (ofDyadic d).low * tenTo (-s).toNat ↔
    (c : ℚ) * 10 ^ s * 2 ^ (-d.exponent) ≤ d.significand - d.reach := by
  rw [← low_cast hpos]
  exact point_le _ c d.exponent s

omit hpos in
theorem high_cast : ((4 * d.significand + 2 : ℕ) : ℚ) / 4 = d.significand + 1 / 2 := by
  push_cast
  ring

omit hpos in
theorem point_le_high : c * tenTo s.toNat * (ofDyadic d).denominator ≤ (ofDyadic d).high * tenTo (-s).toNat ↔
    (c : ℚ) * 10 ^ s * 2 ^ (-d.exponent) ≤ d.significand + 1 / 2 := by
  rw [← high_cast]
  exact point_le _ c d.exponent s

omit hpos in
theorem high_le_point : (ofDyadic d).high * tenTo (-s).toNat ≤ c * tenTo s.toNat * (ofDyadic d).denominator ↔
    (d.significand : ℚ) + 1 / 2 ≤ c * 10 ^ s * 2 ^ (-d.exponent) := by
  rw [← high_cast]
  exact le_point _ c d.exponent s

theorem contains_iff : (ofDyadic d).contains c s = true ↔ d.Attracts (c * 10 ^ s) := by
  cases hc : (ofDyadic d).closed with
  | true =>
    have hev : d.significand % 2 = 0 := by simpa [ofDyadic] using hc
    rw [contains_of_closed hc, low_le_point hpos, point_le_high]
    exact ⟨fun h ↦ ⟨h.1, h.2, fun _ ↦ hev⟩, fun h ↦ ⟨h.low, h.high⟩⟩
  | false =>
    have hodd : ¬ d.significand % 2 = 0 := by simpa [ofDyadic] using hc
    rw [contains_of_open hc, ← not_le, ← not_le, point_le_low hpos, high_le_point, not_le, not_le]
    constructor
    · intro h
      refine ⟨h.1.le, h.2.le, fun he ↦ ?_⟩
      rcases he with he | he <;> linarith [h.1, h.2]
    · intro h
      exact ⟨lt_of_le_of_ne h.low fun he ↦ hodd (h.even (.inl he)),
        lt_of_le_of_ne h.high fun he ↦ hodd (h.even (.inr he))⟩

end Ends

theorem contains_of_pick? {i : Interval} {s : ℤ} {c : ℕ} (h : i.pick? s = some c) :
    i.contains c s = true := by
  simp only [pick?] at h
  split at h
  · next h₁ h₂ => split at h <;> simp_all
  · simp_all
  · simp_all
  · simp at h

theorem below_spec {d : Dyadic} (s : ℤ) :
    (((ofDyadic d).below s : ℕ) : ℚ) * 10 ^ s ≤ d.significand * 2 ^ d.exponent ∧
      (d.significand : ℚ) * 2 ^ d.exponent < ((ofDyadic d).below s + 1) * 10 ^ s := by
  have hden : 0 < 4 * twoTo (-d.exponent).toNat * tenTo s.toNat :=
    Nat.mul_pos (Nat.mul_pos (by norm_num) (twoTo_pos _)) (tenTo_pos _)
  have hle := Nat.div_mul_le_self (4 * d.significand * twoTo d.exponent.toNat * tenTo (-s).toNat)
    (4 * twoTo (-d.exponent).toNat * tenTo s.toNat)
  have hlt := Nat.lt_div_mul_add (a := 4 * d.significand * twoTo d.exponent.toNat * tenTo (-s).toNat) hden
  have hb : (ofDyadic d).below s = 4 * d.significand * twoTo d.exponent.toNat * tenTo (-s).toNat /
    (4 * twoTo (-d.exponent).toNat * tenTo s.toNat) := rfl
  rw [← hb] at hle hlt
  rw [ten_zpow_split s, two_zpow_split d.exponent]
  have h₁ : (((ofDyadic d).below s * (4 * twoTo (-d.exponent).toNat * tenTo s.toNat) : ℕ) : ℚ) ≤
    (4 * d.significand * twoTo d.exponent.toNat * tenTo (-s).toNat : ℕ) := by exact_mod_cast hle
  have h₂ : ((4 * d.significand * twoTo d.exponent.toNat * tenTo (-s).toNat : ℕ) : ℚ) <
    ((ofDyadic d).below s * (4 * twoTo (-d.exponent).toNat * tenTo s.toNat) +
      4 * twoTo (-d.exponent).toNat * tenTo s.toNat : ℕ) := by exact_mod_cast hlt
  rw [twoTo_eq, twoTo_eq, tenTo_eq, tenTo_eq] at h₁ h₂
  push_cast at h₁ h₂
  constructor
  · rw [mul_div_assoc', mul_div_assoc', div_le_div_iff₀ (by positivity) (by positivity)]
    linarith
  · rw [mul_div_assoc', mul_div_assoc', div_lt_div_iff₀ (by positivity) (by positivity)]
    linarith

/-- A grid finer than half a step has a point in the interval. -/
theorem pick?_isSome {d : Dyadic} (hpos : 0 < d.significand) {s : ℤ}
    (hs : (10 : ℚ) ^ s * 2 < 2 ^ d.exponent) : ((ofDyadic d).pick? s).isSome := by
  obtain ⟨hle, hlt⟩ := below_spec (d := d) s
  have he := two_zpow_pos d.exponent
  have hinv : (2 : ℚ) ^ d.exponent * 2 ^ (-d.exponent) = 1 := by
    rw [← zpow_add₀ (by norm_num), add_neg_cancel, zpow_zero]
  have hneg := two_zpow_pos (-d.exponent)
  have hx : ((((ofDyadic d).below s + 1 : ℕ)) : ℚ) * 10 ^ s * 2 ^ (-d.exponent) < d.significand + 1 / 2 := by
    push_cast
    have : ((((ofDyadic d).below s : ℕ) : ℚ) + 1) * 10 ^ s < (d.significand + 1 / 2) * 2 ^ d.exponent := by
      linarith
    calc _ < ((d.significand : ℚ) + 1 / 2) * 2 ^ d.exponent * 2 ^ (-d.exponent) :=
          mul_lt_mul_of_pos_right this hneg
      _ = _ := by rw [mul_assoc, hinv, mul_one]
  have hy : (d.significand : ℚ) < (((ofDyadic d).below s + 1 : ℕ) : ℚ) * 10 ^ s * 2 ^ (-d.exponent) := by
    push_cast
    calc (d.significand : ℚ) = (d.significand : ℚ) * 2 ^ d.exponent * 2 ^ (-d.exponent) := by
          rw [mul_assoc, hinv, mul_one]
      _ < _ := mul_lt_mul_of_pos_right hlt hneg
  have hreach : 0 < d.reach := by
    simp only [Dyadic.reach]; split <;> norm_num
  have hc : (ofDyadic d).contains ((ofDyadic d).below s + 1) s = true := by
    rw [contains_iff hpos]
    refine ⟨by linarith, hx.le, fun h ↦ ?_⟩
    rcases h with h | h <;> linarith
  simp only [pick?, hc]
  cases (ofDyadic d).contains ((ofDyadic d).below s) s <;> simp

theorem search_spec {d : Dyadic} (hpos : 0 < d.significand) (n : ℕ) (s : ℤ)
    (hs : (10 : ℚ) ^ (s - n) * 2 < 2 ^ d.exponent) :
    d.Attracts ((ofDyadic d).search (n + 1) s).value ∧
      s - n ≤ ((ofDyadic d).search (n + 1) s).exponent ∧
      ((ofDyadic d).search (n + 1) s).exponent ≤ s := by
  induction n generalizing s with
  | zero =>
    have h := pick?_isSome hpos (s := s) (by simpa using hs)
    obtain ⟨c, hc⟩ := Option.isSome_iff_exists.1 h
    have hcon := contains_of_pick? hc
    rw [contains_iff hpos] at hcon
    simp only [search, hc]
    exact ⟨hcon, by simp, le_rfl⟩
  | succ n ih =>
    cases hp : (ofDyadic d).pick? s with
    | some c =>
      have hcon := contains_of_pick? hp
      rw [contains_iff hpos] at hcon
      rw [search, hp]
      exact ⟨hcon, by simp; omega, le_rfl⟩
    | none =>
      rw [search, hp]
      simp only
      obtain ⟨h₁, h₂, h₃⟩ := ih (s - 1) (by
        rw [show s - 1 - (n : ℤ) = s - ((n + 1 : ℕ) : ℤ) by push_cast; ring]; exact hs)
      exact ⟨h₁, by push_cast; omega, by omega⟩

end Interval

/-- The search begins with `0.30103` in place of the decimal logarithm of two. -/
theorem ten_pow_le_two_pow : ∀ k < 1100, 10 ^ (k * 30103 / 100000) ≤ 2 ^ (k + 1) := by
  decide +kernel

theorem two_pow_le_ten_pow : ∀ k < 1100, 2 ^ k ≤ 2 * 10 ^ ((k * 30103 + 99999) / 100000) := by
  decide +kernel

theorem ten_zpow_le_two_zpow {k : ℤ} (hlow : -1100 < k) (hhigh : k < 1100) :
    (10 : ℚ) ^ (k * 30103 / 100000) ≤ 2 ^ (k + 1) := by
  rcases le_total 0 k with hk | hk
  · obtain ⟨n, rfl⟩ := Int.eq_ofNat_of_zero_le hk
    have h := ten_pow_le_two_pow n (by omega)
    have h₁ : (n : ℤ) * 30103 / 100000 = ((n * 30103 / 100000 : ℕ) : ℤ) := by push_cast; rfl
    have h₂ : (n : ℤ) + 1 = ((n + 1 : ℕ) : ℤ) := by push_cast; rfl
    rw [h₁, h₂, zpow_natCast, zpow_natCast]
    exact_mod_cast h
  · obtain ⟨n, hn⟩ := Int.eq_ofNat_of_zero_le (neg_nonneg.2 hk)
    have h := two_pow_le_ten_pow n (by omega)
    have h₁ : k * 30103 / 100000 = -(((n * 30103 + 99999) / 100000 : ℕ) : ℤ) := by omega
    have h₂ : k + 1 = 1 - (n : ℤ) := by omega
    rw [h₁, h₂, zpow_neg, zpow_natCast, zpow_sub₀ (by norm_num), zpow_one, zpow_natCast,
      inv_le_comm₀ (by positivity) (by positivity), inv_div, div_le_iff₀ (by norm_num)]
    have : ((2 ^ n : ℕ) : ℚ) ≤ (2 * 10 ^ ((n * 30103 + 99999) / 100000) : ℕ) := by exact_mod_cast h
    push_cast at this
    linarith

/-- The search ends before it gives up. -/
theorem startGrid_fine {d : Dyadic} (hd : d.Canonical) (hpos : 0 < d.significand) :
    (10 : ℚ) ^ (startGrid d - 23) * 2 < 2 ^ d.exponent := by
  have hlog : d.significand.log2 < 53 := (Nat.log2_lt hpos.ne').2 hd.small
  have hleast := hd.least
  have hgreatest := hd.greatest
  set k : ℤ := (d.significand.log2 : ℤ) + d.exponent + 1 with hk
  have hstart : startGrid d - 23 = k * 30103 / 100000 + -22 := by
    simp only [startGrid, ← hk]
    ring
  have hpow := ten_zpow_le_two_zpow (k := k) (by omega) (by omega)
  calc (10 : ℚ) ^ (startGrid d - 23) * 2
      = 10 ^ (k * 30103 / 100000) * (10 ^ (-22 : ℤ) * 2) := by
        rw [hstart, zpow_add₀ (by norm_num), mul_assoc]
    _ ≤ 2 ^ (k + 1) * (10 ^ (-22 : ℤ) * 2) := by gcongr
    _ < 2 ^ (k + 1) * 2 ^ (-55 : ℤ) := by
        have := two_zpow_pos (k + 1)
        gcongr
        norm_num
    _ = 2 ^ (k - 54) := by rw [← zpow_add₀ (by norm_num)]; congr 1; ring
    _ ≤ 2 ^ d.exponent := zpow_le_zpow_right₀ (by norm_num) (by omega)

theorem startGrid_bounds {d : Dyadic} (hd : d.Canonical) (hpos : 0 < d.significand) :
    -330 ≤ startGrid d ∧ startGrid d ≤ 330 := by
  have hlog : d.significand.log2 < 53 := (Nat.log2_lt hpos.ne').2 hd.small
  have hleast := hd.least
  have hgreatest := hd.greatest
  simp only [startGrid]
  omega

theorem Shortest.strip_spec (n : ℕ) (t : Shortest) :
    (t.strip n).value = t.value ∧ t.exponent ≤ (t.strip n).exponent ∧
      (t.strip n).exponent ≤ t.exponent + n := by
  induction n generalizing t with
  | zero => exact ⟨rfl, le_rfl, by simp [strip]⟩
  | succ n ih =>
    rw [strip]
    split
    · next h =>
      obtain ⟨h₁, h₂, h₃⟩ := ih ⟨t.digits / 10, t.exponent + 1⟩
      refine ⟨h₁.trans ?_, by simp only at h₂; omega, by simp only at h₃; push_cast; omega⟩
      have hdiv : (t.digits : ℚ) = (t.digits / 10 : ℕ) * 10 := by
        exact_mod_cast (Nat.div_mul_cancel (Nat.dvd_of_mod_eq_zero h)).symm
      simp only [value]
      rw [hdiv, zpow_add₀ (by norm_num), zpow_one]
      ring
    · exact ⟨rfl, le_rfl, by omega⟩

/-- The shortest decimal of a positive number is one that the number attracts, and its exponent is
within the bounds of the reader. -/
theorem Dyadic.shortest_spec {d : Dyadic} (hd : d.Canonical) (hpos : 0 < d.significand) :
    d.Attracts d.shortest.value ∧ d.shortest.digits ≠ 0 ∧
      -390 ≤ d.shortest.exponent ∧ d.shortest.exponent ≤ 390 := by
  obtain ⟨hatt, hlow, hhigh⟩ := Interval.search_spec hpos 23 (startGrid d)
    (by exact_mod_cast startGrid_fine hd hpos)
  rw [show 23 + 1 = 24 from rfl] at hatt hlow hhigh
  obtain ⟨hb₁, hb₂⟩ := startGrid_bounds hd hpos
  obtain ⟨hval, hl, hh⟩ := ((Interval.ofDyadic d).search 24 (startGrid d)).strip_spec 20
  have heq : d.shortest = ((Interval.ofDyadic d).search 24 (startGrid d)).strip 20 := by
    rw [shortest, if_neg hpos.ne']
  rw [← heq] at hval hl hh
  rw [← hval] at hatt
  refine ⟨hatt, fun h0 ↦ ?_, by omega, by omega⟩
  have h := hatt.low
  have hr := d.reach_le
  have hm : (1 : ℚ) ≤ d.significand := by exact_mod_cast hpos
  simp only [Shortest.value, h0, Nat.cast_zero, zero_mul] at h
  linarith

end Stencil.Decimal
