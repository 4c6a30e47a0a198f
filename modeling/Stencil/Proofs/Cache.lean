import Stencil.Cache
import Stencil.Proofs.Entries
/-!
The windows of a cache. Look-ups, clearings and timers that fire come in any order, and a timer may fire
at any time after it was set. Whatever the order, a cache holds the values that were computed since its
entries were last dropped, and a flush is due just when there are any.
-/

namespace Stencil.Cache

variable {α : Type}

/-! ### Courses -/

/-- Whether a look-up of a key runs its computation: then one that fails makes the look-up fail. -/
def asks (c : Cache α) (key : String) : Bool :=
  match (c.getOrTry key fun _ ↦ (.error () : Except Unit α)).1 with
  | .ok _ => false
  | .error _ => true

/-- The values computed so far, and the one that a look-up computes when it runs its computation. -/
def noted (c : Cache α) (key : String) (value? : Option α) (j : Entries α) : Entries α :=
  match value? with
  | some v => if c.asks key then j ++ [(key, v)] else j
  | none => j

/-- The states that a cache comes to, each with the values that were computed since the last clearing
and the last time that the timer of the current window fired. -/
inductive Course (ttl : ℕ) : Entries α → Cache α → Prop where
  | start : Course ttl [] (ofTtl ttl)
  | get {j : Entries α} {c : Cache α} (key : String) (compute : Unit → α) : Course ttl j c →
      Course ttl (c.noted key (some (compute ())) j) (c.getOr key compute).2
  | tryGet {ε : Type} {j : Entries α} {c : Cache α} (key : String) (compute : Unit → Except ε α) : Course ttl j c →
      Course ttl (c.noted key (compute ()).toOption j) (c.getOrTry key compute).2
  | clear {j : Entries α} {c : Cache α} : Course ttl j c → Course ttl [] c.clear
  | fire {j : Entries α} {c : Cache α} {window : ℕ} : window ∈ c.timers → Course ttl j c →
      Course ttl (if window = c.generation then [] else j) (c.fire window)

/-! ### What every step keeps -/

/-- A cache that holds given values. Its windows are numbered upwards, and the current one has a timer
just when there is something to drop. -/
structure Holds (j : Entries α) (c : Cache α) : Prop where
  entries : c.entries = j
  nodup : j.keys.Nodup
  armed : j ≠ [] ↔ c.armed = true
  pending : c.generation ∈ c.timers ↔ c.armed = true
  numbered : ∀ window ∈ c.timers, window ≤ c.generation
  timers : c.timers.Nodup

variable {ε : Type} {ttl : ℕ} {c : Cache α} {j : Entries α}

theorem asks_eq (c : Cache α) (key : String) : c.asks key = (c.get? key).isNone := by
  rw [asks, getOrTry]
  cases c.get? key <;> rfl

theorem getOr_eq (c : Cache α) (key : String) (compute : Unit → α) :
    c.getOr key compute = match c.get? key with
      | some v => (v, c)
      | none => (compute (), c.put key (compute ())) := rfl

namespace Holds

theorem start (ttl : ℕ) : Holds ([] : Entries α) (ofTtl ttl) where
  entries := rfl
  nodup := List.nodup_nil
  armed := by simp [ofTtl]
  pending := by simp [ofTtl]
  numbered := by simp [ofTtl]
  timers := List.nodup_nil

theorem get?_eq (h : Holds j c) (key : String) : c.get? key = j.get? key := by rw [get?, h.entries]

theorem put {key : String} (h : Holds j c) (hkey : j.get? key = none) (value : α) :
    Holds (j ++ [(key, value)]) (c.put key value) := by
  have hnew : j.put key value = j ++ [(key, value)] := Entries.put_of_not_mem (Entries.get?_eq_none_iff.1 hkey) value
  have hnodup : (j ++ [(key, value)]).keys.Nodup := hnew ▸ Entries.nodup_keys_put h.nodup value
  rw [Cache.put, h.entries, hnew]
  by_cases harmed : c.armed = true
  · simp only [harmed, if_true]
    exact ⟨rfl, hnodup, by simp, by simpa [harmed] using h.pending, h.numbered, h.timers⟩
  · simp only [harmed, Bool.false_eq_true, if_false]
    refine ⟨rfl, hnodup, by simp, by simp, fun window hwindow ↦ ?_, List.nodup_cons.2 ⟨fun hmem ↦ ?_, h.timers⟩⟩
    · rcases List.mem_cons.1 hwindow with rfl | hwindow
      · exact le_rfl
      · exact (h.numbered window hwindow).trans (Nat.le_succ _)
    · exact absurd (h.numbered _ hmem) (by simp)

/-- A look-up that computes nothing leaves the cache as it was; one that does keeps what it computes. -/
theorem getOr (h : Holds j c) (key : String) (compute : Unit → α) :
    Holds (c.noted key (some (compute ())) j) (c.getOr key compute).2 := by
  rw [noted.eq_def, asks_eq, getOr_eq, h.get?_eq]
  cases hkey : j.get? key with
  | some v => exact h
  | none => exact h.put hkey _

theorem getOrTry (h : Holds j c) (key : String) (compute : Unit → Except ε α) :
    Holds (c.noted key (compute ()).toOption j) (c.getOrTry key compute).2 := by
  rw [noted.eq_def, asks_eq, Cache.getOrTry, h.get?_eq]
  cases hkey : j.get? key with
  | some v => cases compute () <;> exact h
  | none =>
    cases compute () with
    | ok v => exact h.put hkey v
    | error e => exact h

/-- No timer has the number of the window that a clearing begins. -/
theorem clear (h : Holds j c) : Holds [] c.clear where
  entries := rfl
  nodup := List.nodup_nil
  armed := by simp [Cache.clear]
  pending := by
    simp only [Cache.clear, Bool.false_eq_true, iff_false]
    exact fun hmem ↦ absurd (h.numbered _ hmem) (by simp)
  numbered window hwindow := (h.numbered window hwindow).trans (Nat.le_succ _)
  timers := h.timers

theorem fire_stale {window : ℕ} (hstale : window ≠ c.generation) :
    c.fire window = { c with timers := c.timers.erase window } := by
  rw [fire]
  simp [Ne.symm hstale]

theorem fire {window : ℕ} (h : Holds j c) (hwindow : window ∈ c.timers) :
    Holds (if window = c.generation then [] else j) (c.fire window) := by
  have hnumbered : ∀ w ∈ c.timers.erase window, w ≤ c.generation := fun w hw ↦ h.numbered w (List.mem_of_mem_erase hw)
  by_cases hcurrent : window = c.generation
  · subst hcurrent
    have harmed : c.armed = true := h.pending.1 hwindow
    rw [if_pos rfl, Cache.fire]
    simp only [harmed, beq_self_eq_true, Bool.and_self, if_true]
    refine ⟨rfl, List.nodup_nil, by simp, ?_, hnumbered, h.timers.erase _⟩
    simp [h.timers.mem_erase_iff]
  · rw [if_neg hcurrent, fire_stale hcurrent]
    refine ⟨h.entries, h.nodup, h.armed, ?_, hnumbered, h.timers.erase _⟩
    rw [List.mem_erase_of_ne (Ne.symm hcurrent)]
    exact h.pending

end Holds

theorem Course.holds (h : Course ttl j c) : Holds j c := by
  induction h with
  | start => exact .start ttl
  | get key compute _ ih => exact ih.getOr key compute
  | tryGet key compute _ ih => exact ih.getOrTry key compute
  | clear _ ih => exact ih.clear
  | fire hwindow _ ih => exact ih.fire hwindow

/-! ### Windows -/

/-- Whatever is done to a cache, and whenever its timers fire: there are entries just when a flush is due;
then one timer, and no other, is that of the current window, and any other changes nothing when it fires;
a look-up gives the value that was computed for its key since the entries were last dropped, and runs its
computation just when there is none, so that no key has two; and a computation that fails changes nothing. -/
theorem Course.windows (h : Course ttl j c) :
    (c.entries ≠ [] ↔ c.armed = true) ∧
    (c.armed = true → c.timers.count c.generation = 1) ∧
    (∀ window, window ≠ c.generation → c.fire window = { c with timers := c.timers.erase window }) ∧
    (∀ key, (c.asks key = true ↔ j.get? key = none) ∧
      (∀ compute, (c.getOr key compute).1 = (j.get? key).getD (compute ())) ∧
      ∀ compute : Unit → Except ε α, (c.getOrTry key compute).1 = match j.get? key with
        | some v => .ok v
        | none => compute ()) ∧
    j.keys.Nodup ∧
    (∀ key (compute : Unit → Except ε α) (e : ε), compute () = .error e → (c.getOrTry key compute).2 = c) := by
  have hholds := h.holds
  refine ⟨hholds.entries ▸ hholds.armed, fun harmed ↦ ?_, fun window ↦ Holds.fire_stale, fun key ↦ ⟨?_, fun compute ↦ ?_, fun compute ↦ ?_⟩,
    hholds.nodup, fun key compute e hfails ↦ ?_⟩
  · exact List.count_eq_one_of_mem hholds.timers (hholds.pending.2 harmed)
  · rw [asks_eq, hholds.get?_eq, Option.isNone_iff_eq_none]
  · rw [getOr_eq, hholds.get?_eq]
    cases j.get? key <;> rfl
  · rw [getOrTry, hholds.get?_eq]
    cases j.get? key with
    | some v => rfl
    | none => cases compute () <;> rfl
  · rw [getOrTry]
    cases c.get? key with
    | some v => rfl
    | none => simp only [hfails]

/-- A cache in its second window, with the timer of the first still to fire. -/
def reopened : Cache ℕ := (((ofTtl 200).getOr "first" fun _ ↦ 1).2.clear.getOr "second" fun _ ↦ 2).2

theorem windows_reopened : Course 200 [("second", 2)] reopened ∧ reopened.timers = [3, 1] ∧
    reopened.timers.count reopened.generation = 1 ∧ (reopened.fire 1).entries = [("second", 2)] ∧
    (reopened.getOr "second" fun _ ↦ 7).1 = 2 := by
  have hcourse : Course 200 [("second", 2)] reopened :=
    .get (j := []) "second" (fun _ ↦ 2) (.clear (.get (j := []) "first" (fun _ ↦ 1) .start))
  obtain ⟨_, hpending, hstale, hlooks, _⟩ := hcourse.windows (ε := Unit)
  refine ⟨hcourse, rfl, hpending rfl, ?_, ?_⟩
  · rw [hstale 1 (by decide)]
    rfl
  · rw [(hlooks "second").2.1]
    rfl

end Stencil.Cache
