import Stencil.Proofs.Command.Answer
/-!
The commands that write a value, bind a variable and release one, told as a manual tells of them: what
each comes to in terms of the desk alone.
-/

namespace Stencil

namespace Command

variable (c : Command)

def missing : Except RunError Deed := do
  match ← MissingPolicy.ofCommand c with
  | .empty => .ok (.write "")
  | .fallback => .ok (.write c.fallbackText)
  | .keep => .ok .leave
  | .delete => .ok .remove
  | .fail => .error (.missingValue (c.describe "value"))

def valueIn (m : Model) : Except RunError (Option Datum) := (c.source? "value").map fun source? ↦ source?.bind m.value?

def written (k : Desk) : Except RunError Deed := do
  match ← c.valueIn k.model with
  | none => c.missing
  | some (.leaf .null) => c.missing
  | some (.leaf v) => .ok (.write v.text)
  | some _ => .error (.value (.notSingle (c.describe "value")))

def bound (m : Model) : Except RunError Model := do
  let key ← c.requireStr "key"
  let value? ← c.valueIn m
  (m.push key (value?.getD .null)).mapError .path

def released (m : Model) : Except RunError Model := do
  let key ← c.requireStr "key"
  match m.scope.pop? key with
  | some (_, scope) => .ok { m with scope }
  | none => .error (.structure (.unbound key))

end Command

def Desk.consuming (k : Desk) (step : Model → Except RunError Model) : Except RunError Deed × Desk :=
  match step k.model with
  | .ok model => (.ok .consume, { k with model })
  | .error e => (.error e, k)

namespace Handler

open Run

variable {s : Selection}

theorem value?_on (s : Selection) (key : String) (r : RunState) : (s.value? key).on r =
    ((s.command.source? key).map fun source? ↦ source?.bind r.model.value?, r) := by
  rw [Selection.value?, Selection.source?]
  cases s.command.source? key <;> rfl

theorem writeMissing_on (s : Selection) (r : RunState) : s.writeMissing.on r = match s.command.missing with
    | .ok deed => (s.perform deed).on r
    | .error e => (.error e, r) := by
  rw [Selection.writeMissing, Command.missing]
  cases MissingPolicy.ofCommand s.command with
  | error e => rfl
  | ok policy => cases policy <;> rfl

theorem insertion_acts (s : Selection) : s.Acts (insertion.execute s) fun k ↦ (s.command.written k, k) := by
  intro r
  refine ⟨r, .refl r, rfl, ?_⟩
  have hvalue : (s.value? "value").on r = (s.command.valueIn r.desk.model, r) := value?_on s "value" r
  simp only [insertion, Command.written]
  cases hv : s.command.valueIn r.desk.model with
  | error e =>
    rw [hv] at hvalue
    rw [on_bind_error hvalue]
    rfl
  | ok v? =>
    rw [hv] at hvalue
    rw [on_bind_ok hvalue]
    rcases v? with _ | ⟨_ | _ | _ | _ | _⟩ | _ | _
    all_goals first
      | exact writeMissing_on s r
      | rfl

theorem push_acts (s : Selection) : s.Acts (push.execute s) fun k ↦ k.consuming s.command.bound := by
  intro r
  have hvalue : (s.value? "value").on r = (s.command.valueIn r.desk.model, r) := value?_on s "value" r
  simp only [push, Desk.consuming, Command.bound, Selection.requireStr]
  cases s.command.requireStr "key" with
  | error e => exact ⟨r, .refl r, rfl, rfl⟩
  | ok key =>
    rw [on_bind_ok (on_ofExcept_ok _ key r)]
    cases hv : s.command.valueIn r.desk.model with
    | error e =>
      rw [hv] at hvalue
      exact ⟨r, .refl r, rfl, on_bind_error hvalue⟩
    | ok v? =>
      rw [hv] at hvalue
      rw [on_bind_ok hvalue, on_bind_ok (on_log _ r)]
      have hlog : r.Idles { r with log := .pushed key :: r.log } := ⟨⟨⟨[_], rfl, by simp [Event.merges]⟩, .refl _, rfl⟩, rfl⟩
      have hpush (x : RunState) : (Run.push key (v?.getD .null)).on x =
          (ofExcept .path (x.model.push key (v?.getD .null)) >>= setModel).on x := on_bind_ok (on_model x)
      have hmodel : r.desk.model = r.model := rfl
      simp only [hmodel, bind, Except.bind]
      cases hpushed : r.model.push key (v?.getD .null) with
      | error e =>
        refine ⟨_, hlog, rfl, on_bind_error ?_⟩
        rw [hpush, hpushed]
        rfl
      | ok model =>
        refine ⟨{ r with model, log := .pushed key :: r.log }, ⟨⟨⟨[_], rfl, by simp [Event.merges]⟩, .refl _, rfl⟩, rfl⟩,
          rfl, on_bind_ok (a := ()) ?_⟩
        rw [hpush, hpushed]
        rfl

theorem pop_acts (s : Selection) : s.Acts (pop.execute s) fun k ↦ k.consuming s.command.released := by
  intro r
  simp only [pop, Desk.consuming, Command.released, Selection.requireStr]
  cases s.command.requireStr "key" with
  | error e => exact ⟨r, .refl r, rfl, rfl⟩
  | ok key =>
    rw [on_bind_ok (on_ofExcept_ok _ key r), on_bind_ok (on_log _ r), on_bind_ok (on_model _)]
    have hlog : r.Idles { r with log := .popped key :: r.log } := ⟨⟨⟨[_], rfl, by simp [Event.merges]⟩, .refl _, rfl⟩, rfl⟩
    have hmodel : r.desk.model = r.model := rfl
    simp only [hmodel, bind, Except.bind]
    cases r.model.scope.pop? key with
    | none => exact ⟨_, hlog, rfl, rfl⟩
    | some bound => exact ⟨{ r with model := { r.model with scope := bound.2 }, log := .popped key :: r.log },
        ⟨⟨⟨[_], rfl, by simp [Event.merges]⟩, .refl _, rfl⟩, rfl⟩, rfl, rfl⟩

end Handler

namespace Scanner

variable {s : Scanner}

/-- A manual that tells what every renderer knows, and in terms of the desk what writing a value, binding
a variable and releasing one come to. -/
structure Reads (s : Scanner) (m : Manual) : Prop where
  follows : s.Follows m
  omits : m.omits = ["Clone"]
  insertion : ∀ c : Command, c.name = "String" → ∀ k, m.tells c k = (c.written k, k)
  push : ∀ c : Command, c.name = "Push" → ∀ k, m.tells c k = k.consuming c.bound
  pop : ∀ c : Command, c.name = "Pop" → ∀ k, m.tells c k = k.consuming c.released

theorem exists_reads (hs : s.registry = .builtin) : ∃ m, s.Reads m := by
  have hknown : ∀ (name : String) {h : Handler}, Registry.builtin.get? name = some h → s.registry.get? name = some h :=
    fun _ _ hget ↦ hs ▸ hget
  obtain ⟨m, hm, homits, _⟩ := exists_follows hs (List.mem_singleton_self "Clone")
  have hstring := hm.tell (f := fun c k ↦ (c.written k, k)) (hknown "String" rfl) fun _ _ ↦ Handler.insertion_acts _
  have hpush := hstring.tell (f := fun c k ↦ k.consuming c.bound) (hknown "Push" rfl) fun _ _ ↦ Handler.push_acts _
  have hpop := hpush.tell (f := fun c k ↦ k.consuming c.released) (hknown "Pop" rfl) fun _ _ ↦ Handler.pop_acts _
  refine ⟨_, hpop, homits, fun c hc k ↦ ?_, fun c hc k ↦ ?_, fun c hc k ↦ ?_⟩ <;> simp [Manual.tell, hc]

end Scanner

end Stencil
