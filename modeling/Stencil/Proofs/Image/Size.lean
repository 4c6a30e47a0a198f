import Mathlib.Tactic
import Stencil.Image.Size
/-!
A side that keeps the aspect ratio is the nearest pixel count to the exact one, where a word holds that count.
Products of two words and what rounding adds to them stay within two words.
-/

namespace Stencil.SizePolicy

/-- A whole number that is as near to a fraction as whole numbers come. -/
def Nearest (v num den : ℕ) : Prop := 2 * |(v * den : ℤ) - num| ≤ den

/-- What keeping a ratio comes to: nothing overflows two words on the way, the result is a nearest number taken in one
word, and so it is nearest itself exactly when that number is a word. -/
structure Proportional (value num den result : ℕ) : Prop where
  fits : value * num + den / 2 < twoTo 64
  word : ∃ v, Nearest v (value * num) den ∧ result = v % wordSize
  nearest : Nearest result (value * num) den ↔ 2 * (value * num) + den < 2 * (wordSize * den)

variable {value num den v t : ℕ}

theorem wordSize_eq : wordSize = 2 ^ 32 := rfl

theorem nearest_iff : Nearest v num den ↔ 2 * (v * den) ≤ 2 * num + den ∧ 2 * num ≤ 2 * (v * den) + den := by
  rw [Nearest, ← Nat.cast_mul]
  generalize v * den = p
  constructor
  · intro h
    have hlow := neg_le_abs ((p : ℤ) - num)
    have hhigh := le_abs_self ((p : ℤ) - num)
    omega
  · rintro ⟨hlow, hhigh⟩
    rcases abs_cases ((p : ℤ) - num) with ⟨h, -⟩ | ⟨h, -⟩ <;> omega

/-- Half the divisor added before the division rounds to the nearest. -/
theorem nearest_div (h : 0 < den) (num : ℕ) : Nearest ((num + den / 2) / den) num den := by
  have hsplit := Nat.div_add_mod (num + den / 2) den
  have hmod := Nat.mod_lt (num + den / 2) h
  rw [nearest_iff, Nat.mul_comm ((num + den / 2) / den) den]
  omega

/-- What is nearest is less than one step from the quotient that was rounded. -/
theorem Nearest.le_succ (h : Nearest v num den) (hden : 0 < den) : (num + den / 2) / den ≤ v + 1 := by
  rw [nearest_iff] at h
  rw [← Nat.lt_succ_iff, Nat.div_lt_iff_lt_mul hden, Nat.succ_mul, Nat.succ_mul]
  omega

theorem div_lt_iff (h : 0 < den) (num m : ℕ) : (num + den / 2) / den < m ↔ 2 * num + den < 2 * (m * den) := by
  rw [Nat.div_lt_iff_lt_mul h]
  omega

theorem scale_proportional (hvalue : value < wordSize) (hnum : num < wordSize) (hden : 0 < den)
    (hword : den < wordSize) : Proportional value num den (scale value num den) := by
  have hscale : scale value num den = (value * num + den / 2) / den % wordSize := if_neg hden.ne'
  have hnear := nearest_div hden (value * num)
  refine ⟨?_, ⟨_, hnear, hscale⟩, ?_⟩
  · have hproduct : value * num ≤ (2 ^ 32 - 1) * (2 ^ 32 - 1) := by
      rw [wordSize_eq] at hvalue hnum
      exact Nat.mul_le_mul (by omega) (by omega)
    have htwo : twoTo 64 = 2 ^ 64 := rfl
    rw [wordSize_eq] at hword
    omega
  · rw [← div_lt_iff hden]
    constructor
    · intro h
      have hle := h.le_succ hden
      rw [hscale] at hle
      by_contra hover
      -- a word less is more than a step less
      have hdiv := Nat.div_add_mod ((value * num + den / 2) / den) wordSize
      have hpos : 1 ≤ (value * num + den / 2) / den / wordSize :=
        (Nat.one_le_div_iff (by decide)).2 (not_lt.1 hover)
      have hmul := Nat.mul_le_mul_left wordSize hpos
      rw [wordSize_eq] at *
      omega
    · intro h
      rwa [hscale, Nat.mod_eq_of_lt h]

/-- For every size and every side in words, the side that is given is kept and the other one keeps the ratio. -/
theorem apply_proportional {s : PixelSize} (ht : t < wordSize) (hwidth : s.width < wordSize)
    (hheight : s.height < wordSize) :
    (0 < s.width → ∃ h, (keepWidth t).apply s = ⟨t, h⟩ ∧ Proportional s.height t s.width h) ∧
      (0 < s.height → ∃ w, (keepHeight t).apply s = ⟨w, t⟩ ∧ Proportional s.width t s.height w) := by
  constructor
  · intro h
    exact ⟨_, rfl, scale_proportional hheight ht h hwidth⟩
  · intro h
    exact ⟨_, rfl, scale_proportional hwidth ht h hheight⟩

/-- Beyond the greatest word the count is taken in one word, and no longer near. -/
example : (keepWidth 4294967295).apply ⟨1, 2⟩ = ⟨4294967295, 4294967294⟩ := by decide

theorem apply_proportional_widest : 4294967294 < wordSize ∧ 4294967295 < wordSize ∧
    (keepWidth 4294967294).apply ⟨4294967295, 4294967294⟩ = ⟨4294967294, 4294967293⟩ ∧
    (∃ h, (keepWidth 4294967294).apply ⟨4294967295, 4294967294⟩ = ⟨4294967294, h⟩ ∧
      Proportional 4294967294 4294967294 4294967295 h) ∧
    ∃ w, (keepHeight 4294967294).apply ⟨4294967295, 4294967294⟩ = ⟨w, 4294967294⟩ ∧
      Proportional 4294967295 4294967294 4294967294 w := by
  have ht : 4294967294 < wordSize := by decide
  have hwidth : 4294967295 < wordSize := by decide
  obtain ⟨hkeepWidth, hkeepHeight⟩ := apply_proportional (s := ⟨4294967295, 4294967294⟩) ht hwidth ht
  exact ⟨ht, hwidth, by decide, hkeepWidth (by decide), hkeepHeight (by decide)⟩

end Stencil.SizePolicy
