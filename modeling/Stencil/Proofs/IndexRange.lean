import Mathlib.Tactic
import Stencil.IndexRange
/-!
Covering ranges are tight, and their positions are counted. The range that covers positions ends at the least and
the greatest of them, so that neither their order nor their number plays a part. Its positions are listed in
order, and a word holds their number unless they are all the words there are.
-/

namespace Stencil.IndexRange

variable {ns ms : List ℕ} {r s : IndexRange}

structure Bounds (places : Set ℕ) (r : IndexRange) : Prop where
  low : IsLeast places r.low
  high : IsGreatest places r.high

structure Tight (ns : List ℕ) (r : IndexRange) : Prop where
  covers : ∀ n ∈ ns, r.contains n = true
  least : ∀ s : IndexRange, (∀ n ∈ ns, s.contains n = true) → ∀ n, r.contains n = true → s.contains n = true

/-- A range whose positions are listed: each once, in order, from the first one on. -/
structure Counted (r : IndexRange) : Prop where
  listed : ∀ n, r.contains n = true ↔ n ∈ r.positions
  increasing : r.positions.Pairwise (· < ·)
  taken : ∀ count, r.take count = r.positions.take count

/-! ### Covering -/

theorem bounds_point (n : ℕ) : Bounds {n} (point n) := ⟨isLeast_singleton, isGreatest_singleton⟩

theorem Bounds.extend {places : Set ℕ} (h : Bounds places r) (n : ℕ) : Bounds (insert n places) (r.extend n) where
  low := by
    change IsLeast _ (min r.low n)
    rw [min_comm]
    exact h.low.insert n
  high := by
    change IsGreatest _ (max r.high n)
    rw [max_comm]
    exact h.high.insert n

theorem Bounds.foldl {places : Set ℕ} (h : Bounds places r) (ns : List ℕ) :
    Bounds ({n | n ∈ ns} ∪ places) (ns.foldl IndexRange.extend r) := by
  induction ns generalizing places r with
  | nil => simpa using h
  | cons n ns ih =>
    -- a position that is extended over first joins those that the range began with
    have hset : {m | m ∈ n :: ns} ∪ places = {m | m ∈ ns} ∪ insert n places := by
      ext m
      simp only [List.mem_cons, Set.mem_union, Set.mem_ofPred_eq, Set.mem_insert_iff]
      tauto
    rw [hset, List.foldl_cons]
    exact ih (h.extend n)

theorem Bounds.unique {places : Set ℕ} (h : Bounds places r) (h' : Bounds places s) : r = s := by
  have hlow := h.low.unique h'.low
  have hhigh := h.high.unique h'.high
  cases r
  cases s
  simp_all

theorem Bounds.tight (h : Bounds {n | n ∈ ns} r) : Tight ns r where
  covers n hn := contains_iff.2 ⟨h.low.2 hn, h.high.2 hn⟩
  least s hs n hn := by
    have hlow := contains_iff.1 (hs r.low h.low.1)
    have hhigh := contains_iff.1 (hs r.high h.high.1)
    rw [contains_iff] at hn ⊢
    omega

theorem Bounds.low_eq_zero_iff (h : Bounds {n | n ∈ ns} r) : r.low = 0 ↔ 0 ∈ ns := by
  constructor
  · intro hlow
    rw [← hlow]
    exact h.low.1
  · intro hzero
    exact Nat.le_zero.1 (h.low.2 hzero)

theorem Bounds.high_eq_maxWord_iff (h : Bounds {n | n ∈ ns} r) (hword : r.high ≤ maxWord) :
    r.high = maxWord ↔ maxWord ∈ ns := by
  constructor
  · intro hhigh
    rw [← hhigh]
    exact h.high.1
  · intro hmax
    exact le_antisymm hword (h.high.2 hmax)

theorem bounds_foldl {n : ℕ} (h : ∀ m, m = n ∨ m ∈ ms ↔ m ∈ ns) :
    Bounds {m | m ∈ ns} (ms.foldl IndexRange.extend (point n)) := by
  have hset : {m | m ∈ ns} = {m | m ∈ ms} ∪ {n} := by
    ext m
    simp only [Set.mem_ofPred_eq, Set.mem_union, Set.mem_singleton_iff]
    rw [← h m, or_comm]
  rw [hset]
  exact (bounds_point n).foldl ms

theorem bounds_covering (hne : ns ≠ []) : ∃ r, covering ns = some r ∧ Bounds {n | n ∈ ns} r := by
  obtain ⟨n, ns, rfl⟩ := List.exists_cons_of_ne_nil hne
  refine ⟨_, rfl, bounds_foldl fun m ↦ ?_⟩
  rw [List.mem_cons]

theorem Bounds.covering_eq (h : Bounds {n | n ∈ ns} r) : covering ns = some r := by
  obtain ⟨s, hs, hbounds⟩ := bounds_covering (List.ne_nil_of_mem h.low.1)
  rw [hs, hbounds.unique h]

theorem Bounds.congr (h : Bounds {n | n ∈ ns} r) (hmem : ∀ n, n ∈ ms ↔ n ∈ ns) : Bounds {n | n ∈ ms} r := by
  have hset : {n | n ∈ ms} = {n | n ∈ ns} := by
    ext n
    exact hmem n
  rwa [hset]

/-! ### Counting -/

theorem positionsFrom_eq (r : IndexRange) (count n : ℕ) :
    r.positionsFrom count n = List.range' n (min count (r.high + 1 - n)) := by
  induction count generalizing n with
  | zero => simp [positionsFrom]
  | succ count ih =>
    rw [positionsFrom]
    split
    · have hmin : min (count + 1) (r.high + 1 - n) = min count (r.high + 1 - (n + 1)) + 1 := by omega
      rw [hmin, List.range'_succ, ih]
    · have hmin : min (count + 1) (r.high + 1 - n) = 0 := by omega
      rw [hmin]
      rfl

theorem take_eq (r : IndexRange) (count : ℕ) :
    r.take count = List.range' r.low (min count (r.high - r.low + 1)) := by
  have hle := r.low_le_high
  have hcount : r.high + 1 - r.low = r.high - r.low + 1 := by omega
  rw [take, positionsFrom_eq, hcount]

theorem positions_eq (r : IndexRange) : r.positions = List.range' r.low (r.high - r.low + 1) := by
  rw [positions, take_eq, min_self]

theorem length_positions (r : IndexRange) : r.positions.length = r.high - r.low + 1 := by
  rw [positions_eq, List.length_range']

theorem mem_positions {n : ℕ} : n ∈ r.positions ↔ r.low ≤ n ∧ n ≤ r.high := by
  have hle := r.low_le_high
  rw [positions_eq, List.mem_range'_1]
  omega

theorem counted (r : IndexRange) : r.Counted where
  listed n := by rw [contains_iff, mem_positions]
  increasing := by
    rw [positions_eq]
    exact List.pairwise_lt_range'
  taken count := by
    rw [positions_eq, take_eq]
    by_cases hcount : count ≤ r.high - r.low + 1
    · rw [Nat.min_eq_left hcount, List.take_range'_of_length_ge hcount]
    · have hcount := Nat.le_of_not_le hcount
      rw [Nat.min_eq_right hcount, List.take_range'_of_length_le hcount]

/-- A word holds the number of the positions unless every word is one of them. -/
theorem length?_eq (hword : r.high ≤ maxWord) :
    r.length? = if r.low = 0 ∧ r.high = maxWord then none else some r.positions.length := by
  have hle := r.low_le_high
  have hfits : r.high - r.low + 1 ≤ maxWord ↔ ¬(r.low = 0 ∧ r.high = maxWord) := by omega
  rw [length_positions]
  by_cases hall : r.low = 0 ∧ r.high = maxWord
  · rw [if_pos hall]
    exact if_neg (by rw [hfits, not_not]; exact hall)
  · rw [if_neg hall]
    exact if_pos (hfits.2 hall)

/-- Words have one smallest range that contains them, whatever their order and however often they come. Covering
gives it, and so does extending from any of them. Its positions are the words that it contains, listed in order,
and their number is its length. Only of the range of all words the length is more than a word holds. -/
theorem covering_counted (hne : ns ≠ []) (hword : ∀ n ∈ ns, n ≤ maxWord) :
    ∃ r, covering ns = some r ∧ Tight ns r ∧
      (∀ ms : List ℕ, (∀ n, n ∈ ms ↔ n ∈ ns) → covering ms = some r) ∧
      (∀ n ∈ ns, ns.foldl IndexRange.extend (point n) = r ∧ (ns.erase n).foldl IndexRange.extend (point n) = r) ∧
      r.Counted ∧ (∀ n ∈ r.positions, n ≤ maxWord) ∧
      r.length? = if 0 ∈ ns ∧ maxWord ∈ ns then none else some r.positions.length := by
  obtain ⟨r, hr, hbounds⟩ := bounds_covering hne
  have hhigh : r.high ≤ maxWord := hword _ hbounds.high.1
  refine ⟨r, hr, hbounds.tight, ?_, ?_, r.counted, ?_, ?_⟩
  · intro ms hms
    exact (hbounds.congr hms).covering_eq
  · intro n hn
    constructor
    · refine (bounds_foldl fun m ↦ ?_).unique hbounds
      exact ⟨fun hm ↦ hm.elim (· ▸ hn) id, .inr⟩
    · refine (bounds_foldl fun m ↦ ?_).unique hbounds
      rw [← List.mem_cons]
      exact (List.perm_cons_erase hn).mem_iff.symm
  · intro n hn
    exact (mem_positions.1 hn).2.trans hhigh
  · rw [length?_eq hhigh]
    simp only [hbounds.low_eq_zero_iff, hbounds.high_eq_maxWord_iff hhigh]

/-- The range of all words. -/
example : (ofEnds maxWord 0).length? = none := by decide

theorem covering_counted_greatest : (∀ n ∈ [9, 2, maxWord, 2], n ≤ maxWord) ∧
    ∃ r, covering [9, 2, maxWord, 2] = some r ∧ (r.low, r.high) = (2, maxWord) ∧
      covering [maxWord, 9, 2] = some r ∧ [2, maxWord, 2].foldl IndexRange.extend (point 9) = r ∧
      r.length? = some r.positions.length := by
  have hword : ∀ n ∈ [9, 2, maxWord, 2], n ≤ maxWord := by decide
  obtain ⟨r, hr, -, hcongr, hfold, -, -, hlength⟩ := covering_counted (by simp) hword
  refine ⟨hword, r, hr, ?_, hcongr _ fun n ↦ ?_, (hfold 9 (by simp)).2, ?_⟩
  · obtain rfl := Option.some.inj hr
    decide
  · simp only [List.mem_cons, List.not_mem_nil, or_false]
    tauto
  · rw [hlength, if_neg (by decide)]

end Stencil.IndexRange
