import Stencil.Command.Arithmetic
import Stencil.Proofs.Data.Scope
import Stencil.Proofs.Run.Step
/-!
Arithmetic on whole numbers. Two whole numbers give the exact result or none, and the command that computes binds that
result or leaves everything as it was.
-/

namespace Stencil

namespace Operator

/-- Division cut toward zero: the remainder is smaller than the divisor and has the sign of the dividend. -/
structure Divides (a b q r : ℤ) : Prop where
  whole : a = q * b + r
  small : |r| < |b|
  sign : 0 ≤ r * a

def Exact : Operator → ℤ → ℤ → ℤ → Prop
  | add, a, b, x => x = a + b
  | subtract, a, b, x => x = a - b
  | multiply, a, b, x => x = a * b
  | divide, a, b, x => ∃ r, Divides a b x r
  | remainder, a, b, x => ∃ q, Divides a b q x

variable {o : Operator} {a b q r x : ℤ}

theorem divides_iff : Divides a b q r ↔ b ≠ 0 ∧ a.tdiv b = q ∧ a.tmod b = r := by
  constructor
  · rintro ⟨whole, small, sign⟩
    have hb : b ≠ 0 := by
      rintro rfl
      rw [abs_zero] at small
      exact absurd small (not_lt.2 (abs_nonneg r))
    have hsum : r + b * q = a := by
      rw [whole]
      ring
    obtain ⟨hlow, hhigh⟩ := abs_lt.1 small
    rw [Int.abs_eq_natAbs] at hlow hhigh
    refine ⟨hb, ?_⟩
    rcases lt_trichotomy a 0 with ha | ha | ha
    · exact (Int.tdiv_tmod_unique' ha.le hb).2 ⟨hsum, hlow, nonpos_of_mul_nonneg_left sign ha⟩
    · -- nothing but zero is a multiple of the divisor and smaller than it
      have hdvd : b ∣ r := ⟨-q, by rw [mul_neg]; omega⟩
      obtain rfl := Int.eq_zero_of_abs_lt_dvd ((abs_dvd b r).2 hdvd) small
      exact (Int.tdiv_tmod_unique ha.ge hb).2 ⟨hsum, le_rfl, by omega⟩
    · exact (Int.tdiv_tmod_unique ha.le hb).2 ⟨hsum, nonneg_of_mul_nonneg_left sign ha, hhigh⟩
  · rintro ⟨hb, rfl, rfl⟩
    refine ⟨?_, ?_, ?_⟩
    · rw [mul_comm]
      exact (Int.mul_tdiv_add_tmod a b).symm
    · rw [Int.abs_eq_natAbs, Int.abs_eq_natAbs, Int.natAbs_tmod]
      exact_mod_cast Nat.mod_lt _ (Int.natAbs_pos.2 hb)
    · rcases le_total 0 a with ha | ha
      · exact mul_nonneg (Int.tmod_nonneg b ha) ha
      · have hneg := Int.tmod_nonneg b (neg_nonneg.2 ha)
        rw [Int.neg_tmod] at hneg
        exact mul_nonneg_of_nonpos_of_nonpos (by omega) ha

theorem exact_iff : o.Exact a b x ↔ o.result? a b = some x := by
  cases o with
  | add => exact eq_comm.trans (Option.some_inj).symm
  | subtract => exact eq_comm.trans (Option.some_inj).symm
  | multiply => exact eq_comm.trans (Option.some_inj).symm
  | divide => simp [Exact, result?, divides_iff]
  | remainder => simp [Exact, result?, divides_iff]

/-- A quotient of a number of 64 bits has 64 bits, but for one pair of numbers. -/
theorem fitsInt_tdiv (ha : Json.fitsInt a = true) : Json.fitsInt (a.tdiv b) = false ↔ a = Json.minInt ∧ b = -1 := by
  have hmin : Json.minInt = -2 ^ 63 := rfl
  have hmax : Json.maxInt = 2 ^ 63 - 1 := rfl
  simp only [Json.fitsInt, hmin, hmax, Bool.and_eq_true, Bool.and_eq_false_iff, decide_eq_true_eq, decide_eq_false_iff_not] at ha ⊢
  constructor
  · intro h
    have hquotient := Int.natAbs_tdiv a b
    have hle := Nat.div_le_self a.natAbs b.natAbs
    by_cases hone : b.natAbs = 1
    · rcases Int.natAbs_eq_iff.1 hone with rfl | rfl
      · rw [Nat.cast_one, Int.tdiv_one] at h
        omega
      · rw [Nat.cast_one, Int.tdiv_neg, Int.tdiv_one] at h
        omega
    · have hhalf : a.natAbs / b.natAbs ≤ a.natAbs / 2 := by
        rcases Nat.eq_zero_or_pos b.natAbs with hzero | hpos
        · rw [hzero, Nat.div_zero]
          exact Nat.zero_le _
        · exact Nat.div_le_div_left (by omega) (by decide)
      have hnat : (a.tdiv b).natAbs = a.natAbs / b.natAbs := hquotient
      omega
  · rintro ⟨rfl, rfl⟩
    rw [Int.tdiv_neg, Int.tdiv_one]
    omega

/-- Numbers of 64 bits give the exact result where it fits, but for the remainder whose quotient does not fit. -/
theorem onInts?_eq_some (ha : Json.fitsInt a = true) : o.onInts? a b = some x ↔
    (o.Exact a b x ∧ Json.fitsInt x = true) ∧ ¬ (o = remainder ∧ a = Json.minInt ∧ b = -1) := by
  simp only [onInts?, fitsInt_tdiv ha]
  by_cases hover : o = remainder ∧ a = Json.minInt ∧ b = -1
  · rw [if_pos hover]
    simp [hover]
  · rw [if_neg hover, Option.filter_eq_some_iff, exact_iff]
    simp [hover]

theorem onInts?_eq_none (ha : Json.fitsInt a = true)
    (h : (∀ x, o.Exact a b x → Json.fitsInt x = false) ∨ o = remainder ∧ a = Json.minInt ∧ b = -1) :
    o.onInts? a b = none := by
  rw [Option.eq_none_iff_forall_ne_some]
  intro x hx
  obtain ⟨⟨hexact, hfits⟩, hover⟩ := (onInts?_eq_some ha).1 hx
  rcases h with h | h
  · exact absurd hfits (by simp [h x hexact])
  · exact hover h

end Operator

namespace Handler

open Run

variable {s : Selection} {r : RunState} {key : String} {o : Operator} {a b x : ℤ}

theorem operatorOf_eq {c : Command} (h : (c.str? "operator").getD Operator.add.symbol = o.symbol) :
    operatorOf c = .ok o := by
  rw [operatorOf]
  cases hsymbol : c.str? "operator" with
  | none =>
    rw [hsymbol] at h
    cases o with
    | add => rfl
    | _ => exact absurd h (by decide)
  | some symbol =>
    rw [hsymbol] at h
    obtain rfl : symbol = o.symbol := h
    cases o <;> rfl

theorem operand_on (h : (s.value? key).on r = (.ok (some (.leaf (.int a))), r)) : (operand s key).on r = (.ok (.int a), r) := by
  rw [operand, on_bind_ok h]
  rfl

theorem pushed_on {scope : Scope} {value : Datum} (h : r.model.scope.push key value = .ok scope) :
    (Run.push key value).on r = (.ok (), { r with model := { r.model with scope } }) := by
  rw [Run.push, on_bind_ok (on_model r), Model.push, h]
  rfl

theorem binding_on {scope : Scope} (h : r.model.scope.push key (.leaf (.int x)) = .ok scope) :
    (do
      Run.log (.calculated key (Scalar.int x).display)
      Run.push key (.leaf (.int x))
      return .consumed : Run Outcome).on r = (.ok .consumed,
        { r with model := { r.model with scope }, log := .calculated key (Scalar.int x).display :: r.log }) := by
  let logged : RunState := { r with log := .calculated key (Scalar.int x).display :: r.log }
  have hlogged : logged.model.scope.push key (.leaf (.int x)) = .ok scope := h
  rw [on_bind_ok (on_log _ r), on_bind_ok (pushed_on hlogged)]
  rfl

/-- Up to the operation everything is read and nothing is changed. -/
theorem calculation_on (hkey : s.command.str? "key" = some key)
    (hoperator : (s.command.str? "operator").getD Operator.add.symbol = o.symbol)
    (ha : (s.value? "a").on r = (.ok (some (.leaf (.int a))), r)) (hb : (s.value? "b").on r = (.ok (some (.leaf (.int b))), r)) :
    (calculation.execute s).on r = match o.onInts? a b with
      | some x => (do
          Run.log (.calculated key (Scalar.int x).display)
          Run.push key (.leaf (.int x))
          return .consumed : Run Outcome).on r
      | none => (.error (.value (.uncomputable a o b)), r) := by
  have hrequire : (s.requireStr "key").on r = (.ok key, r) := by
    rw [Selection.requireStr, Command.requireStr, hkey]
    rfl
  have hsymbol : (ofExcept id (operatorOf s.command)).on r = (.ok o, r) := by
    rw [operatorOf_eq hoperator]
    rfl
  rw [calculation, on_bind_ok hrequire, on_bind_ok hsymbol, on_bind_ok (operand_on ha), on_bind_ok (operand_on hb), Operator.apply]
  cases o.onInts? a b <;> rfl

/-- For all numbers of 64 bits and each operator: the command binds its key to the exact result where that fits into
64 bits, and else fails and changes nothing. The one exception is the remainder whose quotient does not fit, which
fails although the remainder is zero. -/
theorem calculation_exact (hkey : s.command.str? "key" = some key)
    (hoperator : (s.command.str? "operator").getD Operator.add.symbol = o.symbol)
    (ha : (s.value? "a").on r = (.ok (some (.leaf (.int a))), r)) (hb : (s.value? "b").on r = (.ok (some (.leaf (.int b))), r))
    (hfits : Json.fitsInt a = true) :
    (∀ x, o.Exact a b x → Json.fitsInt x = true → ¬ (o = .remainder ∧ a = Json.minInt ∧ b = -1) →
        Scope.isName key = true → ∃ scope, r.model.scope.push key (.leaf (.int x)) = .ok scope ∧
          scope.stack key = .leaf (.int x) :: r.model.scope.stack key ∧
          (calculation.execute s).on r = (.ok .consumed,
            { r with model := { r.model with scope }, log := .calculated key (Scalar.int x).display :: r.log })) ∧
      ((∀ x, o.Exact a b x → Json.fitsInt x = false) ∨ o = .remainder ∧ a = Json.minInt ∧ b = -1 →
        (calculation.execute s).on r = (.error (.value (.uncomputable a o b)), r)) := by
  rw [calculation_on hkey hoperator ha hb]
  constructor
  · intro x hexact hx hover hname
    have hresult := (Operator.onInts?_eq_some hfits).2 ⟨⟨hexact, hx⟩, hover⟩
    have hpush : r.model.scope.push key (.leaf (.int x)) = .ok ⟨r.model.scope.bindings.put key (.leaf (.int x) :: r.model.scope.stack key)⟩ :=
      Scope.push_eq_ok.2 ⟨hname, rfl⟩
    refine ⟨_, hpush, Scope.stack_push hpush, ?_⟩
    rw [hresult]
    exact binding_on hpush
  · intro hnone
    rw [Operator.onInts?_eq_none hfits hnone]

def division (symbol : String) (divisor : ℤ) : Selection where
  node := ⟨0, 2⟩
  command := ⟨"Calc", [("key", .str "last"), ("$a", .str "n"), ("b", .int divisor), ("operator", .str symbol)], none⟩
  toolkit? := none
  provider := .empty
  now := ⟨⟨0, 1⟩, .midnight⟩

def leastRun : RunState where
  document := .ofText 0 ""
  model := ⟨.null, ⟨[]⟩, ⟨[("n", [.leaf (.int (-9223372036854775808))])]⟩⟩
  aliases := []
  services := .ofTtl 0
  report := .empty
  searches := 0
  nextSerial := 1
  log := []

/-- The last digit of the least number is bound with its sign; the number's opposite does not fit. -/
theorem calculation_exact_least :
    (∃ scope, leastRun.model.scope.push "last" (.leaf (.int (-8))) = .ok scope ∧
      scope.stack "last" = .leaf (.int (-8)) :: leastRun.model.scope.stack "last" ∧
      (calculation.execute (division "%" 10)).on leastRun = (.ok .consumed,
        { leastRun with model := { leastRun.model with scope }, log := [.calculated "last" "-8"] })) ∧
      (calculation.execute (division "/" (-1))).on leastRun =
        (.error (.value (.uncomputable (-9223372036854775808) .divide (-1))), leastRun) := by
  have hleast : Json.fitsInt (-9223372036854775808) = true := by decide
  have hn (symbol : String) (divisor : ℤ) : ((division symbol divisor).value? "a").on leastRun =
      (.ok (some (.leaf (.int (-9223372036854775808)))), leastRun) := rfl
  have hremainder : Operator.Exact .remainder (-9223372036854775808) 10 (-8) :=
    ⟨-922337203685477580, by decide, by decide, by decide⟩
  have hquotient (x : ℤ) (hx : Operator.Exact .divide (-9223372036854775808) (-1) x) : Json.fitsInt x = false := by
    obtain rfl : 9223372036854775808 = x := Option.some_inj.1 (Operator.exact_iff.1 hx)
    decide
  exact ⟨(calculation_exact (o := .remainder) rfl rfl (hn "%" 10) (b := 10) rfl hleast).1 (-8) hremainder (by decide)
    (by decide) (by decide), (calculation_exact (o := .divide) rfl rfl (hn "/" (-1)) (b := -1) rfl hleast).2 (.inl hquotient)⟩

example : Operator.onInts? .remainder Json.minInt (-1) = none ∧ Operator.result? .remainder Json.minInt (-1) = some 0 := by decide

end Handler

end Stencil
