import Stencil.Proofs.Data.PathPrint
import Stencil.Proofs.Data.Scope
/-!
Every name that can be bound can be addressed. Names are spelled with fewer characters than paths allow, so the
name with the mark of a variable in front, and the name alone where a variable is read, are one step, and that
step leads to what the name is bound to.
-/

namespace Stencil

namespace Path

theorem isNameChar_of_scope {c : Char} (h : Scope.isNameChar c = true) :
    isNameChar c = true ∧ Text.isBlank c = false := by
  have hgap := isBlank_of_isGap (c := c)
  simp only [Scope.isNameChar, Bool.not_eq_true', Bool.or_eq_false_iff, beq_eq_false_iff_ne] at h
  obtain ⟨⟨⟨⟨⟨⟨h₁, h₂⟩, h₃⟩, h₄⟩, h₅⟩, h₆⟩, hink⟩ := h
  refine ⟨?_, hink⟩
  cases hc : isGap c with
  | true => rw [hgap hc] at hink; contradiction
  | false => simp [isNameChar, hc, h₁, h₂, h₃, h₄, h₅, h₆]

variable {name : String}

theorem chars_of_isName (h : Scope.isName name = true) :
    name.toList ≠ [] ∧ ∀ c ∈ name.toList, isNameChar c = true := by
  rw [Scope.isName, Bool.and_eq_true, List.all_eq_true] at h
  exact ⟨by simpa using h.1, fun c hc ↦ (isNameChar_of_scope (h.2 c hc)).1⟩

theorem ink_of_isName (h : Scope.isName name = true) : ∀ c ∈ name.toList, Text.isBlank c = false := by
  rw [Scope.isName, Bool.and_eq_true, List.all_eq_true] at h
  exact fun c hc ↦ (isNameChar_of_scope (h.2 c hc)).2

theorem trim_of_isName (h : Scope.isName name = true) : Text.trim name.toList = name.toList := by
  have hink := ink_of_isName h
  rw [Text.trim_eq_self_iff]
  exact ⟨fun c hc ↦ hink c (List.mem_of_mem_head? hc), fun c hc ↦ hink c (List.mem_of_mem_getLast? hc)⟩

theorem parse_of_isName (h : Scope.isName name = true) : parse name = .ok ⟨[.name name]⟩ := by
  have hdisplay : display ⟨[.name name]⟩ = name := by simp [display, writeSteps, writeStep]
  have hvalid : (Step.name name).Valid := chars_of_isName h
  have hregular : Regular [.name name] := ⟨by simpa using hvalid, by simp⟩
  have htrim := trim_of_isName h
  have hread := parse_display (p := ⟨[.name name]⟩) hregular (by rwa [hdisplay])
  rwa [hdisplay] at hread

theorem parseVariable_of_isName (h : Scope.isName name = true) :
    parseVariable name = .ok ⟨[.variableName name]⟩ := by
  rw [parseVariable, trim_of_isName h, String.ofList_toList]
  split
  · next s hs =>
    have hdollar := (chars_of_isName h).2 '$' (by rw [hs]; simp)
    exact absurd hdollar (by decide)
  · rw [parse_of_isName h]
    rfl

theorem parse_marked_of_isName (h : Scope.isName name = true) :
    parse ("$" ++ name) = .ok ⟨[.variableName name]⟩ := by
  have hdisplay : display ⟨[.variableName name]⟩ = "$" ++ name := by
    simp [display, writeSteps, writeStep]
  have hvalid : (Step.variableName name).Valid := chars_of_isName h
  have hregular : Regular [.variableName name] := ⟨by simpa using hvalid, by simp⟩
  have htrim : Text.trim ("$" ++ name).toList = ("$" ++ name).toList := by
    have hends := Text.endsInk_of_all hvalid.1 (ink_of_isName h)
    exact Text.trim_of_ink ⟨'$', name.toList, by simp, rfl⟩ (by simpa using hends.append ['$'])
  have hread := parse_display (p := ⟨[.variableName name]⟩) hregular (by rwa [hdisplay])
  rwa [hdisplay] at hread

/-- A variable leads to its binding, wherever the cursor is as long as there is something under it. -/
theorem resolve_variableName {root d : Datum} {cursor : Path} {scope : Scope}
    (h : (Path.mk []).resolve root cursor scope = some d) :
    (Path.mk [.variableName name]).resolve root cursor scope = scope.get? name := by
  obtain ⟨start, hstart, -⟩ := Option.bind_eq_some_iff.1 h
  have hfollow : ∀ stack, follow root scope start stack (.variableName name) = (scope.get? name).map ([·]) := by
    intro stack
    cases stack <;> rfl
  simp only [resolve, hstart, bind, Option.bind_some, followAll, hfollow]
  cases scope.get? name <;> rfl

end Path

namespace Scope

/-- A name that is read as one step, which leads to a value in a scope. -/
structure Addresses (scope : Scope) (name : String) (value : Datum) : Prop where
  marked : Path.parse ("$" ++ name) = .ok ⟨[.variableName name]⟩
  bare : Path.parseVariable name = .ok ⟨[.variableName name]⟩
  resolves : ∀ (root d : Datum) (cursor : Path), (Path.mk []).resolve root cursor scope = some d →
    (Path.mk [.variableName name]).resolve root cursor scope = some value

theorem addresses {scope : Scope} {name : String} {value : Datum} (h : Nameable name)
    (hget : scope.get? name = some value) : scope.Addresses name value where
  marked := Path.parse_marked_of_isName (isName_iff.2 h)
  bare := Path.parseVariable_of_isName (isName_iff.2 h)
  resolves root d cursor hcursor := by rw [Path.resolve_variableName hcursor, hget]

/-- A scope is a family of independent stacks whose names are all addressed. After any pushes and pops it shows one
stack for each name; every name that is listed is read as one step, which leads to the latest binding of the name;
and so does every name just pushed. What cannot be addressed is refused. -/
theorem after_addressed (calls : List Call) :
    let scope := empty.after calls
    scope.Agrees (stacksAfter (fun _ ↦ []) calls) ∧
      (∀ name ∈ scope.names, ∃ value, scope.get? name = some value ∧ scope.Addresses name value) ∧
      ∀ name value,
        (Nameable name → ∃ scope', scope.push name value = .ok scope' ∧ scope'.Addresses name value) ∧
        (¬Nameable name → scope.push name value = .error (.invalidName name)) := by
  intro scope
  have hagrees := after_agrees calls
  refine ⟨hagrees, ?_, ?_⟩
  · intro name hname
    have hne := (hagrees.names name).1 hname
    obtain ⟨value, rest, hheld⟩ := List.exists_cons_of_ne_nil hne
    have hget : scope.get? name = some value := by rw [hagrees.get, hheld, List.head?_cons]
    exact ⟨value, hget, addresses (nameable_stacksAfter (by simp) calls hne) hget⟩
  · intro name value
    constructor
    · intro hname
      obtain ⟨scope', hpush⟩ := exists_push hname scope value
      exact ⟨scope', hpush, addresses hname (get?_push hpush)⟩
    · exact push_eq_error

theorem after_addressed_shadowed :
    let scope := empty.after [.push "item" (.leaf (.int 1)), .push "item" (.leaf (.int 2)), .push "two words" .null,
      .push "größe" .null, .pop "item", .pop "größe", .pop "missing"]
    scope.depth "item" = 1 ∧ scope.names = ["item"] ∧ Path.parse "$item" = .ok ⟨[.variableName "item"]⟩ ∧
      (Path.mk [.variableName "item"]).resolve .null ⟨[]⟩ scope = some (.leaf (.int 1)) ∧
      Nameable "größe" ∧ (∃ scope', scope.push "größe" .null = .ok scope' ∧ scope'.Addresses "größe" .null) ∧
      ¬Nameable "two\u00a0words" ∧
      scope.push "two\u00a0words" .null = .error (.invalidName "two\u00a0words") := by
  intro scope
  obtain ⟨hagrees, hnames, hpush⟩ := after_addressed [.push "item" (.leaf (.int 1)), .push "item" (.leaf (.int 2)),
    .push "two words" .null, .push "größe" .null, .pop "item", .pop "größe", .pop "missing"]
  have hlisted : scope.names = ["item"] := by decide +kernel
  have hname : Nameable "größe" := by decide +kernel
  have hblank : ¬Nameable "two\u00a0words" := by decide +kernel
  obtain ⟨value, hget, haddresses⟩ := hnames "item" (by rw [hlisted]; simp)
  have hvalue : value = .leaf (.int 1) := (Option.some.inj hget).symm
  subst hvalue
  exact ⟨(hagrees.depth "item").trans rfl, hlisted, haddresses.marked, haddresses.resolves .null .null ⟨[]⟩ rfl,
    hname, (hpush _ _).1 hname, hblank, (hpush _ _).2 hblank⟩

end Scope

end Stencil
