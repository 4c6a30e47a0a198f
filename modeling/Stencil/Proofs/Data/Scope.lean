import Stencil.Data.Scope
import Stencil.Proofs.Entries
/-!
Pushing a name shows the value and hides nothing else, and popping it gives back the very scope that
was there before. After any pushes and pops there is one stack for each name, and the names are those
whose stacks are not empty.
-/

namespace Stencil.Scope

/-- A scope as pushes and pops leave it: no name comes twice, and no stack is empty. -/
structure Sound (scope : Scope) : Prop where
  keys : (Entries.keys scope.bindings).Nodup
  filled : ∀ e ∈ scope.bindings, e.2 ≠ []

theorem sound_empty : empty.Sound := ⟨by simp [empty, Entries.keys], by simp [empty]⟩

theorem push_eq_ok {scope scope' : Scope} {name : String} {value : Datum} :
    scope.push name value = .ok scope' ↔
      isName name = true ∧ scope' = ⟨scope.bindings.put name (value :: scope.stack name)⟩ := by
  simp only [push, checkName]
  by_cases h : isName name = true
  · simp [h, bind, Except.bind, eq_comm]
  · simp [h, bind, Except.bind]

theorem stack_push {scope scope' : Scope} {name : String} {value : Datum}
    (h : scope.push name value = .ok scope') : scope'.stack name = value :: scope.stack name := by
  obtain ⟨_, rfl⟩ := push_eq_ok.1 h
  simp [stack]

theorem stack_push_of_ne {scope scope' : Scope} {name other : String} {value : Datum}
    (h : scope.push name value = .ok scope') (hne : name ≠ other) : scope'.stack other = scope.stack other := by
  obtain ⟨_, rfl⟩ := push_eq_ok.1 h
  simp [stack, Entries.get?_put_of_ne hne]

theorem get?_push {scope scope' : Scope} {name : String} {value : Datum}
    (h : scope.push name value = .ok scope') : scope'.get? name = some value := by
  rw [get?, stack_push h]
  rfl

theorem Sound.push {scope scope' : Scope} (hs : scope.Sound) {name : String} {value : Datum}
    (h : scope.push name value = .ok scope') : scope'.Sound := by
  obtain ⟨_, rfl⟩ := push_eq_ok.1 h
  refine ⟨Entries.nodup_keys_put hs.keys _, fun e he ↦ ?_⟩
  rcases Entries.mem_put he with rfl | he
  · simp
  · exact hs.filled e he

theorem Sound.get?_ne_nil {scope : Scope} (hs : scope.Sound) {name : String} {vs : List Datum}
    (h : scope.bindings.get? name = some vs) : vs ≠ [] := hs.filled _ (Entries.mem_of_get? h)

theorem Sound.pop?_push {scope scope' : Scope} (hs : scope.Sound) {name : String} {value : Datum}
    (h : scope.push name value = .ok scope') : scope'.pop? name = some (value, scope) := by
  have hstack := stack_push h
  obtain ⟨_, rfl⟩ := push_eq_ok.1 h
  rw [pop?, hstack]
  cases hget : scope.bindings.get? name with
  | none =>
    have hnil : scope.stack name = [] := by simp [stack, hget]
    have hmem := Entries.get?_eq_none_iff.1 hget
    have hfilter : (scope.bindings.filter fun e ↦ e.1 != name) = scope.bindings := by
      rw [List.filter_eq_self]
      intro e he
      simp only [bne_iff_ne, ne_eq]
      rintro rfl
      exact hmem (List.mem_map_of_mem he)
    simp only [hnil, Entries.put_of_not_mem hmem, List.filter_append, hfilter]
    simp
  | some vs =>
    have hne := hs.get?_ne_nil hget
    have heq : scope.stack name = vs := by simp [stack, hget]
    obtain ⟨v, vs, rfl⟩ := List.exists_cons_of_ne_nil hne
    simp only [heq, Entries.put_put, Entries.put_get? hget]

variable {scope scope' : Scope} {name other : String} {value : Datum}

theorem pop?_eq_none_iff : scope.pop? name = none ↔ scope.stack name = [] := by
  rw [pop?]
  split <;> simp [*]

theorem pop?_eq_some (h : scope.pop? name = some (value, scope')) :
    (scope.stack name = [value] ∧ scope' = ⟨scope.bindings.filter fun e ↦ e.1 != name⟩) ∨
      ∃ vs, vs ≠ [] ∧ scope.stack name = value :: vs ∧ scope' = ⟨scope.bindings.put name vs⟩ := by
  rw [pop?] at h
  split at h
  · contradiction
  · next v hstack =>
    obtain ⟨rfl, rfl⟩ := Prod.mk.inj (Option.some.inj h)
    exact .inl ⟨hstack, rfl⟩
  · next v vs hne hstack =>
    obtain ⟨rfl, rfl⟩ := Prod.mk.inj (Option.some.inj h)
    exact .inr ⟨vs, hne, hstack, rfl⟩

theorem stack_pop? (h : scope.pop? name = some (value, scope')) :
    scope.stack name = value :: scope'.stack name := by
  rcases pop?_eq_some h with ⟨hstack, rfl⟩ | ⟨vs, -, hstack, rfl⟩
  · rw [hstack, stack, Entries.get?_filter, if_pos rfl, Option.getD_none]
  · rw [hstack, stack, Entries.get?_put_self, Option.getD_some]

theorem stack_pop?_of_ne (h : scope.pop? name = some (value, scope')) (hne : name ≠ other) :
    scope'.stack other = scope.stack other := by
  rcases pop?_eq_some h with ⟨-, rfl⟩ | ⟨vs, -, -, rfl⟩
  · rw [stack, Entries.get?_filter, if_neg (Ne.symm hne), stack]
  · rw [stack, Entries.get?_put_of_ne hne, stack]

theorem Sound.pop? (hs : scope.Sound) (h : scope.pop? name = some (value, scope')) : scope'.Sound := by
  rcases pop?_eq_some h with ⟨-, rfl⟩ | ⟨vs, hvs, -, rfl⟩
  · have hkeys := List.filter_sublist (p := fun e ↦ e.1 != name) (l := scope.bindings)
    exact ⟨(hkeys.map Prod.fst).nodup hs.keys, fun e he ↦ hs.filled e (List.mem_of_mem_filter he)⟩
  · refine ⟨Entries.nodup_keys_put hs.keys _, fun e he ↦ ?_⟩
    rcases Entries.mem_put he with rfl | he
    · exact hvs
    · exact hs.filled e he

/-! ### Calls -/

/-- What may be bound: a text that is not empty, without the marks of paths and without blanks. -/
def Nameable (name : String) : Prop :=
  name ≠ "" ∧ ∀ c ∈ name.toList, c ∉ ['.', '[', ']', '^', '<', '$'] ∧ Text.isBlank c = false

theorem isName_iff : isName name = true ↔ Nameable name := by
  simp only [isName, Nameable, Bool.and_eq_true, List.all_eq_true, isNameChar]
  simp [not_or, and_assoc]

instance (name : String) : Decidable (Nameable name) := decidable_of_iff _ isName_iff

inductive Call where
  | push (name : String) (value : Datum)
  | pop (name : String)

/-- The scope after a call. A push that is refused and a pop of what is not bound leave it as it was. -/
def call (scope : Scope) : Call → Scope
  | .push name value => match scope.push name value with
    | .ok scope' => scope'
    | .error _ => scope
  | .pop name => match scope.pop? name with
    | some (_, scope') => scope'
    | none => scope

def after (scope : Scope) (calls : List Call) : Scope := calls.foldl call scope

def callStacks (held : String → List Datum) : Call → String → List Datum
  | .push name value => if Nameable name then Function.update held name (value :: held name) else held
  | .pop name => Function.update held name (held name).tail

def stacksAfter (held : String → List Datum) (calls : List Call) : String → List Datum := calls.foldl callStacks held

structure Agrees (scope : Scope) (held : String → List Datum) : Prop where
  get : ∀ name, scope.get? name = (held name).head?
  depth : ∀ name, scope.depth name = (held name).length
  bound : ∀ name, scope.isBound name = true ↔ held name ≠ []
  popped : ∀ name, (scope.pop? name).map Prod.fst = (held name).head?
  empty : scope.isEmpty = true ↔ ∀ name, held name = []
  nodup : scope.names.Nodup
  names : ∀ name, name ∈ scope.names ↔ held name ≠ []

theorem exists_push (h : Nameable name) (scope : Scope) (value : Datum) :
    ∃ scope', scope.push name value = .ok scope' := ⟨_, push_eq_ok.2 ⟨isName_iff.2 h, rfl⟩⟩

theorem push_eq_error (h : ¬Nameable name) : scope.push name value = .error (.invalidName name) := by
  rw [← isName_iff] at h
  simp only [push, checkName, if_neg h]
  rfl

theorem stack_call (scope : Scope) (c : Call) : (scope.call c).stack = callStacks scope.stack c := by
  funext other
  cases c with
  | push name value =>
    rw [call, callStacks]
    by_cases hname : Nameable name
    · obtain ⟨scope', hpush⟩ := exists_push hname scope value
      rw [hpush, if_pos hname]
      by_cases hne : name = other
      · subst hne
        rw [stack_push hpush, Function.update_self]
      · rw [stack_push_of_ne hpush hne, Function.update_of_ne (Ne.symm hne)]
    · rw [push_eq_error hname, if_neg hname]
  | pop name =>
    rw [call, callStacks]
    cases hpop : scope.pop? name with
    | none =>
      -- the tail of an empty stack is that stack
      rw [pop?_eq_none_iff.1 hpop, List.tail_nil, ← pop?_eq_none_iff.1 hpop, Function.update_eq_self]
    | some p =>
      by_cases hne : name = other
      · subst hne
        rw [stack_pop? hpop, Function.update_self, List.tail_cons]
      · rw [stack_pop?_of_ne hpop hne, Function.update_of_ne (Ne.symm hne)]

theorem Sound.call (hs : scope.Sound) (c : Call) : (scope.call c).Sound := by
  cases c with
  | push name value =>
    rw [Scope.call]
    cases hpush : scope.push name value with
    | ok scope' => exact hs.push hpush
    | error e => exact hs
  | pop name =>
    rw [Scope.call]
    cases hpop : scope.pop? name with
    | none => exact hs
    | some p => exact hs.pop? hpop

theorem Sound.agrees (hs : scope.Sound) : scope.Agrees scope.stack := by
  have hnames : ∀ name, name ∈ scope.names ↔ scope.stack name ≠ [] := by
    intro name
    rw [names, stack]
    cases hget : scope.bindings.get? name with
    | none => simpa using Entries.get?_eq_none_iff.1 hget
    | some vs =>
      have hmem : name ∈ Entries.keys scope.bindings := List.mem_map_of_mem (Entries.mem_of_get? hget)
      exact iff_of_true hmem (hs.get?_ne_nil hget)
  refine ⟨fun _ ↦ rfl, fun _ ↦ rfl, ?_, ?_, ?_, hs.keys, hnames⟩
  · intro name
    rw [isBound, get?, List.isSome_head?]
  · intro name
    cases hpop : scope.pop? name with
    | none => rw [pop?_eq_none_iff.1 hpop]; rfl
    | some p => rw [stack_pop? hpop]; rfl
  · have hempty : scope.isEmpty = true ↔ scope.names = [] := by simp [isEmpty, names, Entries.keys]
    rw [hempty, List.eq_nil_iff_forall_not_mem]
    simp only [hnames, ne_eq, not_not]

theorem Sound.after (hs : scope.Sound) (calls : List Call) : (scope.after calls).Sound := by
  induction calls generalizing scope with
  | nil => exact hs
  | cons c calls ih => exact ih (hs.call c)

theorem stack_after (scope : Scope) (calls : List Call) :
    (scope.after calls).stack = stacksAfter scope.stack calls := by
  induction calls generalizing scope with
  | nil => rfl
  | cons c calls ih =>
    have hrest := ih (scope.call c)
    rwa [stack_call] at hrest

/-- After any calls a scope is one stack for each name. -/
theorem after_agrees (calls : List Call) : (empty.after calls).Agrees (stacksAfter (fun _ ↦ []) calls) := by
  have hagrees := (sound_empty.after calls).agrees
  rwa [stack_after] at hagrees

theorem nameable_callStacks {held : String → List Datum} (h : ∀ name, held name ≠ [] → Nameable name)
    (c : Call) (hne : callStacks held c other ≠ []) : Nameable other := by
  cases c with
  | push name value =>
    rw [callStacks] at hne
    split at hne
    · next hname =>
      by_cases heq : other = name
      · rwa [heq]
      · rw [Function.update_of_ne heq] at hne
        exact h other hne
    · exact h other hne
  | pop name =>
    rw [callStacks] at hne
    by_cases heq : other = name
    · subst heq
      rw [Function.update_self] at hne
      exact h other fun hnil ↦ hne (by rw [hnil, List.tail_nil])
    · rw [Function.update_of_ne heq] at hne
      exact h other hne

theorem nameable_stacksAfter {held : String → List Datum} (h : ∀ name, held name ≠ [] → Nameable name)
    (calls : List Call) (hne : stacksAfter held calls other ≠ []) : Nameable other := by
  induction calls generalizing held with
  | nil => exact h other hne
  | cons c calls ih => exact ih (fun _ ↦ nameable_callStacks h c) hne

end Stencil.Scope
