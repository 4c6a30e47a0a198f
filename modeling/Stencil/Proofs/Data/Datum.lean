import Stencil.Data.Datum
import Stencil.Proofs.Decimal.Pattern
import Stencil.Proofs.Payload.Value
/-!
Data as data text. What data text can hold is data whose text payloads can hold, and such data is
the same after it was turned into data text and back.
-/

namespace Stencil

namespace Decimal

theorem roundDiv_le (num den : ℕ) : roundDiv num den ≤ num / den + 1 := by
  simp only [roundDiv]
  split_ifs <;> omega

theorem magnitudeBits_lt {n : ℕ} (h : n ≤ maxWord) : magnitudeBits n 1 < infinityBits := by
  by_cases h0 : n = 0
  · rw [magnitudeBits, if_pos h0]
    decide
  obtain ⟨hlow, hhigh⟩ := normalExponent_spec h0 Nat.one_pos
  rw [Nat.cast_one, div_one] at hlow hhigh
  have hword : (n : ℚ) < 2 ^ (64 : ℤ) := by
    have : n < 2 ^ 64 := Nat.lt_of_le_of_lt h (by decide)
    exact_mod_cast this
  have hexp := (zpow_lt_zpow_iff_right₀ (by norm_num : (1 : ℚ) < 2)).1 (hlow.trans_lt hword)
  set q := max (normalExponent n 1) (-1074) with hq
  have hround : roundDiv (n * twoTo (-q).toNat) (1 * twoTo q.toNat) ≤ 2 ^ 53 := by
    have hlt : n * twoTo (-q).toNat / (1 * twoTo q.toNat) < 2 ^ 53 := by
      by_contra hge
      have hle := (le_scaled_div Nat.one_pos q).1 (not_lt.1 hge)
      rw [Nat.cast_one, div_one] at hle
      have hpos := two_zpow_pos (-q)
      have : (n : ℚ) * 2 ^ (-q) < 2 ^ (53 : ℤ) := by
        calc (n : ℚ) * 2 ^ (-q) < 2 ^ (normalExponent n 1 + 53) * 2 ^ (-q) := by gcongr
          _ ≤ 2 ^ (q + 53) * 2 ^ (-q) := by
            gcongr
            · norm_num
            · exact le_max_left _ _
          _ = 2 ^ (53 : ℤ) := by rw [← zpow_add₀ (by norm_num)]; congr 1; ring
      norm_num at hle this
      linarith
    have := roundDiv_le (n * twoTo (-q).toNat) (1 * twoTo q.toNat)
    omega
  have hinf : infinityBits = 2047 * 2 ^ 52 := rfl
  rw [magnitudeBits_eq h0]
  refine lt_of_le_of_lt (min_le_left _ _) ?_
  simp only [← hq]
  have hq' : q < 12 := by omega
  split_ifs
  · omega
  · rw [hinf]
    have : (q + 1075).toNat ≤ 1086 := by omega
    omega

theorem ofInt_isFinite {n : ℤ} (h : n.natAbs ≤ maxWord) : (ofInt n).isFinite = true :=
  signed_isFinite _ (magnitudeBits_lt h)

end Decimal

namespace Json

mutual

/-- Values that data text can hold: whole numbers of 64 bits, signed or not, finite binary64 numbers,
and objects in which no key comes twice. -/
def Sound : Json → Prop
  | .int n => minInt ≤ n ∧ n ≤ maxWord
  | .float x => x.isFinite = true
  | .arr items => SoundItems items
  | .obj entries => (Entries.keys entries).Nodup ∧ SoundEntries entries
  | _ => True

def SoundItems : List Json → Prop
  | [] => True
  | v :: vs => Sound v ∧ SoundItems vs

def SoundEntries : List (String × Json) → Prop
  | [] => True
  | (_, v) :: es => Sound v ∧ SoundEntries es

end

mutual

/-- What payloads can hold, data text can hold. -/
theorem sound_of_readable : ∀ v : Json, v.Readable → v.Sound
  | .null, _ => trivial
  | .bool _, _ => trivial
  | .str _, _ => trivial
  | .int n, h => by
    have hmax : maxInt = 9223372036854775807 := rfl
    have hword : (maxWord : ℤ) = 18446744073709551615 := rfl
    obtain ⟨hmin, hle⟩ : minInt ≤ n ∧ n ≤ maxInt := by simpa [Readable, fitsInt] using h
    exact ⟨hmin, by omega⟩
  | .float _, h => h
  | .arr items, h => soundItems_of_readable items h
  | .obj entries, h => ⟨h.1, soundEntries_of_readable entries h.2⟩

theorem soundItems_of_readable : ∀ vs : List Json, ReadableItems vs → SoundItems vs
  | [], _ => trivial
  | v :: vs, h => ⟨sound_of_readable v h.1, soundItems_of_readable vs h.2⟩

theorem soundEntries_of_readable : ∀ es : List (String × Json), ReadableEntries es → SoundEntries es
  | [], _ => trivial
  | (_, v) :: es, h => ⟨sound_of_readable v h.1, soundEntries_of_readable es h.2⟩

end

end Json

namespace Datum

mutual

/-- Data as data text gives it: whole numbers of 64 signed bits, finite binary64 numbers, and maps in
which no key comes twice. -/
def Sound : Datum → Prop
  | leaf (.int n) => Json.fitsInt n = true
  | leaf (.float x) => x.isFinite = true
  | leaf _ => True
  | list items => SoundItems items
  | map entries => (Entries.keys entries).Nodup ∧ SoundEntries entries

def SoundItems : List Datum → Prop
  | [] => True
  | d :: ds => Sound d ∧ SoundItems ds

def SoundEntries : List (String × Datum) → Prop
  | [] => True
  | (_, d) :: es => Sound d ∧ SoundEntries es

end

theorem SoundItems.at {items : List Datum} (h : SoundItems items) {i : ℕ} {d : Datum}
    (hi : items[i]? = some d) : d.Sound := by
  induction items generalizing i with
  | nil => simp at hi
  | cons e es ih =>
    cases i with
    | zero =>
      obtain rfl : e = d := by simpa using hi
      exact h.1
    | succ i => exact ih h.2 (by simpa using hi)

theorem keys_entriesToJson : ∀ es : List (String × Datum), Entries.keys (entriesToJson es) = Entries.keys es
  | [] => rfl
  | (k, _) :: es => by
    have := keys_entriesToJson es
    simp only [Entries.keys] at this
    simp [entriesToJson, Entries.keys, this]

theorem keys_entriesOfJson : ∀ es : List (String × Json), Entries.keys (entriesOfJson es) = Entries.keys es
  | [] => rfl
  | (k, _) :: es => by
    have := keys_entriesOfJson es
    simp only [Entries.keys] at this
    simp [entriesOfJson, Entries.keys, this]

mutual

theorem readable_toJson : ∀ d : Datum, d.Sound → d.toJson.Readable
  | leaf .null, _ => trivial
  | leaf (.bool _), _ => trivial
  | leaf (.int _), h => h
  | leaf (.float x), h => by
    have hx : x.isFinite = true := h
    rw [toJson, if_pos hx]
    exact hx
  | leaf (.str _), _ => trivial
  | list xs, h => readable_itemsToJson xs h
  | map es, h => ⟨by rw [keys_entriesToJson]; exact h.1, readable_entriesToJson es h.2⟩

theorem readable_itemsToJson : ∀ xs : List Datum, SoundItems xs → Json.ReadableItems (itemsToJson xs)
  | [], _ => trivial
  | x :: xs, h => ⟨readable_toJson x h.1, readable_itemsToJson xs h.2⟩

theorem readable_entriesToJson : ∀ es : List (String × Datum), SoundEntries es →
    Json.ReadableEntries (entriesToJson es)
  | [], _ => trivial
  | (_, d) :: es, h => ⟨readable_toJson d h.1, readable_entriesToJson es h.2⟩

end

mutual

/-- Data is the same after it was data text. -/
theorem ofJson_toJson : ∀ d : Datum, d.Sound → ofJson d.toJson = d
  | leaf .null, _ => rfl
  | leaf (.bool _), _ => rfl
  | leaf (.int n), h => by
    have hn : Json.fitsInt n = true := h
    rw [toJson, ofJson, if_pos hn]
  | leaf (.float x), h => by
    have hx : x.isFinite = true := h
    rw [toJson, if_pos hx, ofJson]
  | leaf (.str _), _ => rfl
  | list xs, h => by rw [toJson, ofJson, itemsOfJson_toJson xs h]
  | map es, h => by rw [toJson, ofJson, entriesOfJson_toJson es h.2]

theorem itemsOfJson_toJson : ∀ xs : List Datum, SoundItems xs → itemsOfJson (itemsToJson xs) = xs
  | [], _ => rfl
  | x :: xs, h => by rw [itemsToJson, itemsOfJson, ofJson_toJson x h.1, itemsOfJson_toJson xs h.2]

theorem entriesOfJson_toJson : ∀ es : List (String × Datum), SoundEntries es →
    entriesOfJson (entriesToJson es) = es
  | [], _ => rfl
  | (_, d) :: es, h => by
    rw [entriesToJson, entriesOfJson, ofJson_toJson d h.1, entriesOfJson_toJson es h.2]

end

mutual

theorem sound_ofJson : ∀ v : Json, v.Sound → (ofJson v).Sound
  | .null, _ => trivial
  | .bool _, _ => trivial
  | .int n, h => by
    rw [ofJson]
    split
    · next hfits => exact hfits
    · have hmin : Json.minInt = -9223372036854775808 := rfl
      have hmax : maxWord = 18446744073709551615 := rfl
      have hn := h.1
      have hn' := h.2
      exact Decimal.ofInt_isFinite (n := n) (by omega)
  | .float _, h => h
  | .str _, _ => trivial
  | .arr vs, h => soundItems_ofJson vs h
  | .obj es, h => ⟨by rw [keys_entriesOfJson]; exact h.1, soundEntries_ofJson es h.2⟩

theorem soundItems_ofJson : ∀ vs : List Json, Json.SoundItems vs → SoundItems (itemsOfJson vs)
  | [], _ => trivial
  | v :: vs, h => ⟨sound_ofJson v h.1, soundItems_ofJson vs h.2⟩

theorem soundEntries_ofJson : ∀ es : List (String × Json), Json.SoundEntries es →
    SoundEntries (entriesOfJson es)
  | [], _ => trivial
  | (_, v) :: es, h => ⟨sound_ofJson v h.1, soundEntries_ofJson es h.2⟩

end

end Datum

end Stencil
