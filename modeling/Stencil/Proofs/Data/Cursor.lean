import Stencil.Data.Model
import Stencil.Proofs.Data.PathText
/-!
Cursors. A cursor that was reached by written paths goes down by names and indices only, and where
a path from it leads is where its collapsed form leads from the root.
-/

namespace Stencil

def Step.IsPlace : Step → Prop
  | .name _ => True
  | .index _ => True
  | _ => False

namespace Path

/-- A path that some text is read as. -/
def Written (p : Path) : Prop := ∃ text, parse text = .ok p ∨ parseVariable text = .ok p

theorem Regular.variable {s : String} {steps : List Step} (h : Regular (.name s :: steps)) :
    Regular (.variableName s :: steps) where
  valid t ht := by
    rcases List.mem_cons.1 ht with rfl | ht
    · exact h.valid (.name s) (by simp)
    · exact h.valid t (by simp [ht])
  inside := h.inside

theorem Written.steps {p : Path} (h : Written p) : p.steps = [.current] ∨ Regular p.steps := by
  obtain ⟨text, h | h⟩ := h
  · exact (parse_spec h).imp And.left And.left
  · simp only [parseVariable] at h
    split at h
    · exact (parse_spec h).imp And.left And.left
    · cases hp : parse (String.ofList (Text.trim text.toList)) with
      | error e => rw [hp] at h; simp [bind, Except.bind] at h
      | ok q =>
        rw [hp] at h
        simp only [bind, Except.bind] at h
        split at h
        · next n rest hsteps =>
          obtain rfl := Except.ok.inj h
          rcases parse_spec hp with ⟨hcur, _⟩ | ⟨hreg, _⟩
          · rw [hcur] at hsteps; simp at hsteps
          · exact .inr (.variable (hsteps ▸ hreg))
        · simp at h

theorem parse_variable {text : String} {p : Path} {s : List Char} (htrim : Text.trim text.toList = '$' :: s)
    (h : parse text = .ok p) : p.hasVariable = true := by
  simp only [parse, htrim] at h
  split at h
  · next hdot => simp at hdot
  · obtain ⟨j, hj⟩ := tokensAt_token (c := '$') (s := s) rfl rfl 0
    have hspec := nextToken_spec '$' s
    have htoken : (∃ w, (nextToken '$' s).1 = .variableName w) ∨ (nextToken '$' s).1 = .unknown := by
      rw [nextToken_dollar]
      split
      · exact .inr rfl
      · exact .inl ⟨_, rfl⟩
    have htokens : tokens ('$' :: s) = (0, (nextToken '$' s).1) :: tokensAt j (nextToken '$' s).2 := hj
    rw [htokens] at h
    rcases htoken with ⟨w, hw⟩ | hw
    · rw [hw] at h hspec
      simp only [assemble, List.isEmpty_nil, Bool.not_true, Bool.false_eq_true, if_false] at h
      have hreg : Regular [Step.variableName (String.ofList w)] :=
        ⟨by simpa [Step.Valid, Token.Valid] using hspec.1, by simp⟩
      obtain ⟨_, steps, hp, _⟩ := assemble_spec h
        (fun t ht ↦ (tokensFrom_spec _ _ _).1 t ht) hreg true (.inr rfl)
      rw [hasVariable, hp]
      simp [isVariable]
    · rw [hw] at h
      simp [assemble] at h

theorem parseVariable_hasVariable {text : String} {p : Path} (h : parseVariable text = .ok p) :
    p.hasVariable = true := by
  simp only [parseVariable] at h
  split at h
  · next s hs =>
    rw [String.toList_ofList] at hs
    have htrim : Text.trim (String.ofList (Text.trim text.toList)).toList = '$' :: s := by
      rw [String.toList_ofList, Text.trim_trim, hs]
    exact parse_variable htrim h
  · cases hp : parse (String.ofList (Text.trim text.toList)) with
    | error e => rw [hp] at h; simp [bind, Except.bind] at h
    | ok q =>
      rw [hp] at h
      simp only [bind, Except.bind] at h
      split at h
      · obtain rfl := Except.ok.inj h
        simp [hasVariable, isVariable]
      · simp at h

theorem collapseAll_append (done steps more : List Step) :
    collapseAll done (steps ++ more) = (collapseAll done steps).bind fun d ↦ collapseAll d more := by
  induction steps generalizing done with
  | nil => rfl
  | cons s ss ih =>
    rw [List.cons_append, collapseAll, collapseAll, Option.bind_assoc]
    congr 1
    funext d
    exact ih d

theorem collapseAll_places {steps : List Step} (h : ∀ s ∈ steps, s.IsPlace) (done : List Step) :
    collapseAll done steps = some (steps.reverse ++ done) := by
  induction steps generalizing done with
  | nil => rfl
  | cons s ss ih =>
    have hs := h s (by simp)
    have htail := ih fun t ht ↦ h t (by simp [ht])
    cases s with
    | name n => simp [collapseAll, collapse, htail]
    | index n => simp [collapseAll, collapse, htail]
    | _ => exact hs.elim

/-- Collapsing adds no step but the step itself, and only one down to a child. -/
theorem collapse_mem {done done' : List Step} {s : Step} (h : collapse done s = some done') :
    ∀ t ∈ done', t ∈ done ∨ t = s ∧ t.IsPlace := by
  intro t ht
  cases s with
  | name n =>
    obtain rfl := Option.some.inj h
    exact (List.mem_cons.1 ht).symm.imp_right fun he ↦ ⟨he, he ▸ trivial⟩
  | index n =>
    obtain rfl := Option.some.inj h
    exact (List.mem_cons.1 ht).symm.imp_right fun he ↦ ⟨he, he ▸ trivial⟩
  | parent =>
    obtain rfl := Option.some.inj h
    exact .inl (List.mem_of_mem_tail ht)
  | root =>
    obtain rfl := Option.some.inj h
    simp at ht
  | current =>
    obtain rfl := Option.some.inj h
    exact .inl ht
  | variableName n => simp [collapse] at h

theorem collapseAll_mem {done done' steps : List Step} (h : collapseAll done steps = some done') :
    ∀ t ∈ done', t ∈ done ∨ t ∈ steps ∧ t.IsPlace := by
  induction steps generalizing done with
  | nil =>
    obtain rfl := Option.some.inj h
    exact fun t ht ↦ .inl ht
  | cons s ss ih =>
    obtain ⟨d, hd, hrest⟩ := Option.bind_eq_some_iff.1 h
    intro t ht
    rcases ih hrest t ht with ht | ⟨ht, hplace⟩
    · exact (collapse_mem hd t ht).imp_right fun h ↦ ⟨by simp [h.1], h.2⟩
    · exact .inr ⟨List.mem_cons_of_mem _ ht, hplace⟩

theorem collapseAll_eq_none (done : List Step) {steps : List Step} :
    collapseAll done steps = none ↔ ∃ s ∈ steps, isVariable s = true := by
  induction steps generalizing done with
  | nil => simp [collapseAll]
  | cons s ss ih => cases s <;> simp [collapseAll, collapse, isVariable, ih]

theorem normalize_eq_ok {p q : Path} :
    p.normalize = .ok q ↔ collapseAll [] p.steps = some q.steps.reverse := by
  rw [normalize]
  cases collapseAll [] p.steps with
  | none => simp
  | some d =>
    simp only [Except.ok.injEq, Option.some.injEq]
    constructor
    · rintro rfl
      simp
    · rintro rfl
      simp

/-- A cursor: names and indices that texts can spell. -/
def IsCursor (p : Path) : Prop := ∀ s ∈ p.steps, s.IsPlace ∧ s.Valid

theorem IsCursor.push {p : Path} (h : p.IsCursor) {i : ℕ} (hi : i ≤ maxIndex) : (p.push (.index i)).IsCursor := by
  intro s hs
  rcases List.mem_append.1 hs with hs | hs
  · exact h s hs
  · rw [List.mem_singleton.1 hs]
    exact ⟨trivial, hi⟩

theorem Written.valid {p : Path} (h : p.Written) : ∀ s ∈ p.steps, s = .current ∨ s.Valid := by
  intro s hs
  rcases h.steps with hcur | hreg
  · rw [hcur] at hs
    exact .inl (List.mem_singleton.1 hs)
  · exact .inr (hreg.valid s hs)

theorem normalize_mem {p q : Path} (h : p.normalize = .ok q) : ∀ s ∈ q.steps, s ∈ p.steps ∧ s.IsPlace :=
  fun s hs ↦ (collapseAll_mem (normalize_eq_ok.1 h) s (List.mem_reverse.2 hs)).resolve_left (by simp)

theorem normalize_eq_error {p : Path} : (∃ e, p.normalize = .error e) ↔ p.hasVariable = true := by
  rw [hasVariable, List.any_eq_true, ← collapseAll_eq_none [], normalize]
  cases collapseAll [] p.steps <;> simp

end Path

namespace Model

theorem setCursor_eq_ok {m m' : Model} {p : Path} :
    m.setCursor p = .ok m' ↔ ∃ q, p.normalize = .ok q ∧ m' = { m with cursor := q } := by
  simp only [setCursor]
  cases p.normalize with
  | error e => simp [bind, Except.bind]
  | ok q => simp [bind, Except.bind, eq_comm]

end Model

namespace Path

variable {root : Datum} {scope : Scope} {anchor : List Datum}

theorem followAll_append (stack : List Datum) (steps more : List Step) :
    followAll root scope anchor stack (steps ++ more) =
      (followAll root scope anchor stack steps).bind fun t ↦ followAll root scope anchor t more := by
  induction steps generalizing stack with
  | nil => rfl
  | cons s ss ih =>
    rw [List.cons_append, followAll, followAll, Option.bind_assoc]
    congr 1
    funext d
    exact ih d

theorem follow_place {s : Step} (hs : s.IsPlace) {stack stack' : List Datum}
    (h : follow root scope anchor stack s = some stack') :
    ∃ d, stack' = d :: stack ∧ ∀ scope' anchor', follow root scope' anchor' stack s = some stack' := by
  cases stack with
  | nil => cases s <;> simp [follow, Step.IsPlace] at h hs
  | cons top below =>
    cases s with
    | name n =>
      obtain ⟨d, hd, rfl⟩ := Option.map_eq_some_iff.1 h
      exact ⟨d, rfl, fun _ _ ↦ h⟩
    | index n =>
      obtain ⟨d, hd, rfl⟩ := Option.map_eq_some_iff.1 h
      exact ⟨d, rfl, fun _ _ ↦ h⟩
    | _ => exact hs.elim

theorem followAll_places {steps : List Step} (hs : ∀ s ∈ steps, s.IsPlace) {stack stack' : List Datum}
    (h : followAll root scope anchor stack steps = some stack') (scope' : Scope) (anchor' : List Datum) :
    followAll root scope' anchor' stack steps = some stack' := by
  induction steps generalizing stack with
  | nil => exact h
  | cons s ss ih =>
    obtain ⟨t, ht, hrest⟩ := Option.bind_eq_some_iff.1 h
    obtain ⟨d, rfl, hall⟩ := follow_place (hs s (by simp)) ht
    rw [followAll, hall scope' anchor', Option.bind_some]
    exact ih (fun t ht ↦ hs t (by simp [ht])) hrest

/-- A stack is what collapsed steps, the last one first, lead to from the root. -/
structure Stands (root : Datum) (done : List Step) (stack : List Datum) : Prop where
  places : ∀ s ∈ done, s.IsPlace
  walk : ∀ scope anchor, followAll root scope anchor [root] done.reverse = some stack

theorem Stands.start (root : Datum) : Stands root [] [root] := ⟨by simp, fun _ _ ↦ rfl⟩

theorem Stands.down {done : List Step} {stack stack' : List Datum} {s : Step} (h : Stands root done stack)
    (hs : s.IsPlace) (hstep : follow root scope anchor stack s = some stack') :
    Stands root (s :: done) stack' := by
  obtain ⟨d, rfl, hall⟩ := follow_place hs hstep
  refine ⟨fun t ht ↦ ?_, fun scope' anchor' ↦ ?_⟩
  · rcases List.mem_cons.1 ht with rfl | ht
    · exact hs
    · exact h.places t ht
  · rw [List.reverse_cons, followAll_append, h.walk, Option.bind_some, followAll, hall scope' anchor']
    rfl

theorem Stands.up {done : List Step} {top below : Datum} {rest : List Datum}
    (h : Stands root done (top :: below :: rest)) : Stands root done.tail (below :: rest) := by
  cases done with
  | nil =>
    have := h.walk .empty []
    simp [followAll] at this
  | cons s done =>
    refine ⟨fun t ht ↦ h.places t (by simpa using .inr ht), fun scope' anchor' ↦ ?_⟩
    have hwalk := h.walk scope' anchor'
    rw [List.reverse_cons, followAll_append] at hwalk
    obtain ⟨stack, hstack, hlast⟩ := Option.bind_eq_some_iff.1 hwalk
    obtain ⟨t, ht, hnil⟩ := Option.bind_eq_some_iff.1 hlast
    obtain rfl : t = top :: below :: rest := by simpa [followAll] using hnil
    obtain ⟨d, hd, _⟩ := follow_place (h.places s (by simp)) ht
    rw [List.tail_cons, hstack, (List.cons.inj hd).2]

/-- What a step does to the stack collapsing does to the steps. -/
theorem Stands.step {done : List Step} {stack stack' : List Datum} {s : Step} (h : Stands root done stack)
    (hvar : isVariable s = false) (hcur : s = .current → anchor = stack)
    (hstep : follow root scope anchor stack s = some stack') :
    ∃ done', collapse done s = some done' ∧ Stands root done' stack' := by
  cases s with
  | name n => exact ⟨_, rfl, h.down trivial hstep⟩
  | index n => exact ⟨_, rfl, h.down trivial hstep⟩
  | variableName n => simp [isVariable] at hvar
  | parent =>
    refine ⟨_, rfl, ?_⟩
    rcases stack with _ | ⟨top, _ | ⟨below, rest⟩⟩
    · simp [follow] at hstep
    · simp [follow] at hstep
    · obtain rfl := Option.some.inj hstep
      exact h.up
  | root =>
    refine ⟨_, rfl, ?_⟩
    have : stack' = [root] := by cases stack <;> simpa [follow, eq_comm] using hstep
    rw [this]
    exact .start root
  | current =>
    refine ⟨_, rfl, ?_⟩
    have : stack' = anchor := by cases stack <;> simpa [follow, eq_comm] using hstep
    rw [this, hcur rfl]
    exact h

theorem Stands.steps {done steps : List Step} {stack stack' : List Datum} (h : Stands root done stack)
    (hvar : ∀ s ∈ steps, isVariable s = false) (hcur : ∀ s ∈ steps, s ≠ .current)
    (hsteps : followAll root scope anchor stack steps = some stack') :
    ∃ done', collapseAll done steps = some done' ∧ Stands root done' stack' := by
  induction steps generalizing done stack with
  | nil =>
    obtain rfl := Option.some.inj hsteps
    exact ⟨done, rfl, h⟩
  | cons s ss ih =>
    obtain ⟨t, ht, hrest⟩ := Option.bind_eq_some_iff.1 hsteps
    obtain ⟨d, hd, hstands⟩ := h.step (hvar s (by simp)) (fun he ↦ absurd he (hcur s (by simp))) ht
    obtain ⟨done', hdone', hstands'⟩ := ih hstands (fun t ht ↦ hvar t (by simp [ht]))
      (fun t ht ↦ hcur t (by simp [ht])) hrest
    exact ⟨done', by rw [collapseAll, hd, Option.bind_some, hdone'], hstands'⟩

/-- What a path without variables leads to from a cursor is what its collapsed form leads to from the
root. -/
theorem stands_normalize {cursor p q : Path} {start stack : List Datum}
    (hcursor : ∀ s ∈ cursor.steps, s.IsPlace) (hp : p.Written) (hvar : p.hasVariable = false)
    (hq : (cursor.join p).normalize = .ok q)
    (hstart : followAll root scope [root] [root] cursor.steps = some start)
    (hstack : followAll root scope start start p.steps = some stack) : Stands root q.steps.reverse stack := by
  have hdone : Stands root cursor.steps.reverse start := by
    refine ⟨fun s hs ↦ hcursor s (List.mem_reverse.1 hs), fun scope' anchor' ↦ ?_⟩
    rw [List.reverse_reverse]
    exact followAll_places hcursor hstart scope' anchor'
  have hcollapse : collapseAll cursor.steps.reverse p.steps = some q.steps.reverse := by
    have := normalize_eq_ok.1 hq
    rwa [join, collapseAll_append, collapseAll_places hcursor, Option.bind_some,
      List.append_nil] at this
  have hvar' : ∀ s ∈ p.steps, isVariable s = false := by
    simpa [hasVariable] using hvar
  rcases hp.steps with hcur | hreg
  · rw [hcur] at hcollapse hstack
    obtain ⟨t, ht, hnil⟩ := Option.bind_eq_some_iff.1 hstack
    obtain rfl : t = stack := Option.some.inj hnil
    obtain ⟨done', hd, hstands⟩ := hdone.step rfl (fun _ ↦ rfl) ht
    have heq : done' = q.steps.reverse := by
      simpa [collapseAll, hd] using hcollapse
    exact heq ▸ hstands
  · obtain ⟨done', hd, hstands⟩ := hdone.steps hvar'
      (fun s hs ↦ by rintro rfl; exact hreg.valid _ hs) hstack
    have heq : done' = q.steps.reverse := Option.some.inj (hd.symm.trans hcollapse)
    exact heq ▸ hstands

theorem Stands.resolve {q : Path} {stack : List Datum} (h : Stands root q.steps.reverse stack)
    (scope : Scope) (s : Step) :
    (Path.mk []).resolve root (q.push s) scope = (follow root scope [root] stack s).bind List.head? := by
  have hwalk := h.walk scope [root]
  rw [List.reverse_reverse] at hwalk
  have hpush : followAll root scope [root] [root] (q.push s).steps = follow root scope [root] stack s := by
    rw [push, followAll_append, hwalk, Option.bind_some, followAll]
    cases follow root scope [root] stack s <;> rfl
  simp only [Path.resolve, hpush, followAll]
  rfl

/-- An item of a list that a path leads to is where the path leads with the index behind it. -/
theorem resolve_push {p cursor : Path} {items : List Datum} (h : p.resolve root cursor scope = some (.list items))
    (i : ℕ) : (p.push (.index i)).resolve root cursor scope = items[i]? := by
  obtain ⟨start, hstart, h⟩ := Option.bind_eq_some_iff.1 h
  obtain ⟨stack, hstack, hv⟩ := Option.bind_eq_some_iff.1 h
  obtain ⟨below, rfl⟩ : ∃ below, stack = Datum.list items :: below := by
    cases stack with
    | nil => simp at hv
    | cons top below => exact ⟨below, by simpa using hv⟩
  have hpush : followAll root scope start start (p.push (.index i)).steps =
      items[i]?.map fun d ↦ d :: Datum.list items :: below := by
    rw [push, followAll_append, hstack, Option.bind_some, followAll, follow, Datum.at?]
    cases items[i]? <;> rfl
  simp only [Path.resolve, hstart, hpush, bind, Option.bind_some]
  cases items[i]? <;> rfl

end Path

end Stencil
