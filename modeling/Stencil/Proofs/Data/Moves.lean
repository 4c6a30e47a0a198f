import Stencil.Command.Builtin
import Stencil.Proofs.Data.Cursor
import Stencil.Proofs.Run.Step
/-!
Moves of the cursor. A cursor that was moved goes down by names and indices; what a path leads to
is at hand once the cursor has entered the path, and the paths that begin with a variable or at the
root lead to the same from every cursor under which there is something. Commands that move the cursor
are calls on the model, so that this holds behind them as well.
-/

namespace Stencil

namespace Path

variable {root : Datum} {scope : Scope} {anchor : List Datum}

/-- A path that never comes back to where it began. -/
def Onward (p : Path) : Prop := ∀ s ∈ p.steps, s ≠ .current

/-- An onward path that begins with a variable or at the root. -/
def Absolute (p : Path) : Prop := p.Onward ∧ ∃ s ∈ p.steps.head?, isVariable s = true ∨ s = .root

theorem follow_onward {s : Step} (hs : s ≠ .current) (anchor' stack : List Datum) :
    follow root scope anchor stack s = follow root scope anchor' stack s := by
  rcases stack with _ | ⟨top, _ | ⟨below, rest⟩⟩ <;> cases s <;> first | rfl | exact absurd rfl hs

theorem followAll_onward {steps : List Step} (h : ∀ s ∈ steps, s ≠ .current) (anchor' stack : List Datum) :
    followAll root scope anchor stack steps = followAll root scope anchor' stack steps := by
  induction steps generalizing stack with
  | nil => rfl
  | cons s ss ih =>
    rw [followAll, followAll, follow_onward (h s (by simp)) anchor']
    congr 1
    funext t
    exact ih (fun u hu ↦ h u (by simp [hu])) t

theorem follow_ne_nil {stack stack' : List Datum} {s : Step} (hanchor : anchor ≠ [])
    (h : follow root scope anchor stack s = some stack') : stack' ≠ [] := by
  have hmap : ∀ {x : Option Datum} {below : List Datum}, x.map (· :: below) = some stack' → stack' ≠ [] := by
    intro x below hx
    obtain ⟨d, _, rfl⟩ := Option.map_eq_some_iff.1 hx
    simp
  have hsome : ∀ {t : List Datum}, t ≠ [] → some t = some stack' → stack' ≠ [] := fun ht he ↦
    Option.some.inj he ▸ ht
  cases s with
  | name n => cases stack with
    | nil => simp [follow] at h
    | cons top below => exact hmap h
  | index n => cases stack with
    | nil => simp [follow] at h
    | cons top below => exact hmap h
  | variableName n => cases stack <;> exact hmap h
  | parent => rcases stack with _ | ⟨top, _ | ⟨below, rest⟩⟩ <;> simp [follow] at h; simp [← h]
  | root => cases stack <;> exact hsome (by simp) h
  | current => cases stack <;> exact hsome hanchor h

theorem followAll_ne_nil {stack stack' : List Datum} {steps : List Step} (hanchor : anchor ≠ [])
    (hstack : stack ≠ []) (h : followAll root scope anchor stack steps = some stack') : stack' ≠ [] := by
  induction steps generalizing stack with
  | nil => exact Option.some.inj h ▸ hstack
  | cons s ss ih =>
    obtain ⟨t, ht, hrest⟩ := Option.bind_eq_some_iff.1 h
    exact ih (follow_ne_nil hanchor ht) hrest

/-- The first step of an absolute path forgets where the walk stands. -/
theorem Absolute.followAll_eq {p : Path} (h : p.Absolute) (stack : List Datum) :
    followAll root scope stack stack p.steps = followAll root scope [root] [root] p.steps := by
  obtain ⟨honward, s, hs, hfirst⟩ := h
  rw [followAll_onward honward [root]]
  obtain ⟨ss, hss⟩ := List.head?_eq_some_iff.1 hs
  have hjump : follow root scope [root] stack s = follow root scope [root] [root] s := by
    cases s with
    | variableName n => cases stack <;> rfl
    | root => cases stack <;> rfl
    | _ => simp [isVariable] at hfirst
  rw [hss, followAll, followAll, hjump]

/-- An absolute path leads from every cursor to where it leads from the root, unless there is
nothing under the cursor. -/
theorem Absolute.resolve_eq {p : Path} (h : p.Absolute) (cursor : Path) :
    p.resolve root cursor scope =
      if ((Path.mk []).resolve root cursor scope).isSome then p.resolve root ⟨[]⟩ scope else none := by
  simp only [resolve, bind]
  cases hstart : followAll root scope [root] [root] cursor.steps with
  | none => rfl
  | some start =>
    obtain ⟨top, below, rfl⟩ := List.exists_cons_of_ne_nil (followAll_ne_nil (by simp) (by simp) hstart)
    simp only [Option.bind_some, followAll, List.head?_cons, Option.isSome_some, if_true, h.followAll_eq]

end Path

inductive Move where
  | set (p : Path)
  | enter (p : Path)

/-- The path that a call moves the cursor to, before it is collapsed. -/
def Move.target (cursor : Path) : Move → Path
  | set p => p
  | enter p => cursor.join p

namespace Model

def move (m : Model) : Move → Except PathError Model
  | .set p => m.setCursor p
  | .enter p => m.enter p

/-- The model after calls in order. A call that fails leaves the model as it was. -/
def moved : Model → List Move → Model
  | m, [] => m
  | m, v :: vs => match m.move v with
    | .ok m' => m'.moved vs
    | .error _ => m.moved vs

def atRoot (m : Model) : Model := { m with cursor := ⟨[]⟩ }

theorem move_eq_setCursor (m : Model) (v : Move) : m.move v = m.setCursor (v.target m.cursor) := by
  cases v <;> rfl

theorem move_eq_ok {m m' : Model} {v : Move} :
    m.move v = .ok m' ↔ ∃ q, (v.target m.cursor).normalize = .ok q ∧ m' = { m with cursor := q } := by
  rw [move_eq_setCursor, setCursor_eq_ok]

theorem move_eq_error {m : Model} {v : Move} :
    (∃ e, m.move v = .error e) ↔ (v.target m.cursor).hasVariable = true := by
  rw [move_eq_setCursor, ← Path.normalize_eq_error, setCursor]
  cases (v.target m.cursor).normalize <;> simp [bind, Except.bind]

theorem moved_append (m : Model) (vs ws : List Move) : m.moved (vs ++ ws) = (m.moved vs).moved ws := by
  induction vs generalizing m with
  | nil => rfl
  | cons v vs ih =>
    simp only [List.cons_append, moved]
    cases m.move v <;> exact ih _

theorem moved_one_of_ok {m m' : Model} {v : Move} (h : m.move v = .ok m') : m.moved [v] = m' := by
  simp only [moved, h]

theorem moved_induction {P : Model → Prop} {m : Model} (hm : P m)
    (hstep : ∀ {m m' : Model} {v : Move}, P m → m.move v = .ok m' → P m') (vs : List Move) : P (m.moved vs) := by
  induction vs generalizing m with
  | nil => exact hm
  | cons v vs ih =>
    rw [moved]
    split
    · next hmove => exact ih (hstep hm hmove)
    · exact ih hm

theorem atRoot_moved (m : Model) (vs : List Move) : (m.moved vs).atRoot = m.atRoot :=
  moved_induction (P := fun m' ↦ m'.atRoot = m.atRoot) rfl (fun h hmove ↦ by
    obtain ⟨q, _, rfl⟩ := move_eq_ok.1 hmove
    exact h) vs

theorem moved_isPlace {m : Model} (h : ∀ s ∈ m.cursor.steps, s.IsPlace) (vs : List Move) :
    ∀ s ∈ (m.moved vs).cursor.steps, s.IsPlace :=
  moved_induction (P := fun m ↦ ∀ s ∈ m.cursor.steps, s.IsPlace) h (fun _ hmove ↦ by
    obtain ⟨q, hq, rfl⟩ := move_eq_ok.1 hmove
    exact fun s hs ↦ (Path.normalize_mem hq s hs).2) vs

theorem target_hasVariable {m : Model} (h : ∀ s ∈ m.cursor.steps, s.IsPlace) (p : Path) :
    (Move.enter p |>.target m.cursor).hasVariable = p.hasVariable := by
  have hnone : m.cursor.steps.any Path.isVariable = false := by
    rw [List.any_eq_false]
    intro s hs
    have hplace := h s hs
    cases s <;> first | exact hplace.elim | exact Bool.false_ne_true
  simp [Move.target, Path.join, Path.hasVariable, hnone]

theorem atRoot_resolve (m : Model) {p : Path} (h : p.Absolute) :
    m.resolve p = if m.current.isSome then m.atRoot.resolve p else none := h.resolve_eq m.cursor

theorem resolve_eq_iff {m m' : Model} (h : m.atRoot = m'.atRoot) {p : Path} (hp : p.Absolute) :
    m.resolve p = m'.resolve p ↔ m.current.isSome = m'.current.isSome ∨ m.atRoot.resolve p = none := by
  rw [m.atRoot_resolve hp, m'.atRoot_resolve hp, ← h]
  cases m.current <;> cases m'.current <;> simp [eq_comm]

/-- Entering a path puts the cursor on the node that the path leads to, and an onward path leads
from there where it led behind the path before. -/
theorem enter_agrees {m : Model} (hcursor : ∀ s ∈ m.cursor.steps, s.IsPlace) {p : Path} {d : Datum}
    (hp : p.Written) (hvar : p.hasVariable = false) (hd : m.resolve p = some d) :
    ∃ m', m.enter p = .ok m' ∧ m'.current = some d ∧
      ∀ q : Path, q.Onward → m'.resolve q = m.resolve (p.join q) := by
  obtain ⟨start, hstart, hrest⟩ := Option.bind_eq_some_iff.1 hd
  obtain ⟨stack, hstack, hhead⟩ := Option.bind_eq_some_iff.1 hrest
  obtain ⟨c, hc⟩ : ∃ c, (m.cursor.join p).normalize = .ok c := by
    cases hnorm : (m.cursor.join p).normalize with
    | ok c => exact ⟨c, rfl⟩
    | error e =>
      have herr := Path.normalize_eq_error.1 ⟨e, hnorm⟩
      rw [← Move.target, target_hasVariable hcursor, hvar] at herr
      simp at herr
  have hwalk := (Path.stands_normalize hcursor hp hvar hc hstart hstack).walk m.scope [m.root]
  rw [List.reverse_reverse] at hwalk
  refine ⟨{ m with cursor := c }, setCursor_eq_ok.2 ⟨c, hc, rfl⟩, ?_, fun q hq ↦ ?_⟩
  · simp only [current, resolve, Path.resolve, hwalk, bind, Option.bind_some, Path.followAll, hhead]
  · simp only [resolve, Path.resolve, hwalk, hstart, bind, Option.bind_some, Path.join,
      Path.followAll_append, hstack]
    rw [Path.followAll_onward hq start]

end Model

namespace Run

/-- A call that fails in a run leaves the whole state of the run as it was, and it fails just when
its path has a variable. -/
theorem enter_on (p : Path) (r : RunState) :
    (∃ m, r.model.enter p = .ok m ∧ ((enter p).on r).1 = .ok () ∧ ((enter p).on r).2.model = m) ∨
      ∃ e, r.model.enter p = .error e ∧ (enter p).on r = (.error (.path e), r) := by
  rw [enter, on_bind_ok (on_model r)]
  cases r.model.enter p with
  | ok m => exact .inl ⟨m, rfl, rfl, rfl⟩
  | error e => exact .inr ⟨e, rfl, rfl⟩

end Run

namespace Model

/-- Moving the cursor agrees with following paths. After any calls the cursor goes down by names and
indices only; a call fails just when its path has a variable, and then leaves the model, and in a
run the whole state, as it was; and a path that leads to some node, once entered, is where the
cursor stands, so that what lies behind the path lies ahead of the cursor. -/
theorem moved_agrees (root : Datum) (scope : Scope) (vs : List Move) :
    let m := (Model.mk root ⟨[]⟩ scope).moved vs
    (∀ s ∈ m.cursor.steps, s.IsPlace) ∧
      (∀ v : Move, (∃ e, m.move v = .error e) ↔ (v.target m.cursor).hasVariable = true) ∧
      (∀ v e, m.move v = .error e → (Model.mk root ⟨[]⟩ scope).moved (vs ++ [v]) = m) ∧
      (∀ (p : Path) (e : RunError) (r r' : RunState), (Run.enter p).on r = (.error e, r') → r' = r) ∧
      ∀ (p : Path) (d : Datum), p.Written → p.hasVariable = false → m.resolve p = some d →
        ∃ m', m.enter p = .ok m' ∧ m'.current = some d ∧
          ∀ q : Path, q.Onward → m'.resolve q = m.resolve (p.join q) := by
  intro m
  have hcursor : ∀ s ∈ m.cursor.steps, s.IsPlace := moved_isPlace (by simp) vs
  refine ⟨hcursor, fun v ↦ move_eq_error, fun v e hv ↦ ?_, fun p e r r' hrun ↦ ?_,
    fun p d hp hvar hd ↦ enter_agrees hcursor hp hvar hd⟩
  · rw [moved_append]
    change m.moved [v] = m
    simp only [moved, hv]
  · rcases Run.enter_on p r with ⟨m', _, hok, _⟩ | ⟨e', _, hfail⟩
    · rw [hrun] at hok
      simp at hok
    · rw [hfail] at hrun
      exact (Prod.mk.inj hrun).2.symm

theorem moved_agrees_upward : ∃ m',
    ((Model.mk (.map [("a", .map [("b", .leaf (.int 1))])]) ⟨[]⟩ .empty).moved
      [.enter ⟨[.name "a"]⟩, .set ⟨[.variableName "x"]⟩]).enter ⟨[.parent, .name "a", .name "b"]⟩ = .ok m' ∧
    m'.current = some (.leaf (.int 1)) ∧ m'.resolve ⟨[.parent, .parent, .root]⟩ = some m'.root := by
  obtain ⟨-, -, -, -, hagrees⟩ := moved_agrees (.map [("a", .map [("b", .leaf (.int 1))])]) .empty
    [.enter ⟨[.name "a"]⟩, .set ⟨[.variableName "x"]⟩]
  obtain ⟨m', henter, hcurrent, hq⟩ := hagrees ⟨[.parent, .name "a", .name "b"]⟩ (.leaf (.int 1))
    ⟨"<a.b", .inl rfl⟩ rfl rfl
  refine ⟨m', henter, hcurrent, ?_⟩
  obtain rfl := Except.ok.inj henter
  exact hq ⟨[.parent, .parent, .root]⟩ (by simp [Path.Onward])

end Model

end Stencil

/-! ### Commands -/

namespace Stencil

namespace Handler

def cursors (ss : List Selection) (r : RunState) : RunState :=
  ss.foldl (fun r s ↦ ((Handler.cursor.execute s).on r).2) r

theorem cursor_moved (s : Selection) (r : RunState) :
    ∃ vs, ((Handler.cursor.execute s).on r).2.model = r.model.moved vs := by
  simp only [Handler.cursor]
  cases hkey : s.requireStr "value" |>.on r with
  | mk x r₁ =>
    have hr₁ : r₁ = r := by
      simp only [Selection.requireStr] at hkey
      cases hstr : s.command.requireStr "value" <;> rw [hstr] at hkey <;> exact (Prod.mk.inj hkey).2.symm
    subst hr₁
    cases x with
    | error e =>
      rw [Run.on_bind_error hkey]
      exact ⟨[], rfl⟩
    | ok text =>
      rw [Run.on_bind_ok hkey]
      cases hparse : Path.parse text with
      | error e => exact ⟨[], rfl⟩
      | ok p =>
        rw [Run.on_bind_ok (Run.on_ofExcept_ok _ _ _)]
        rcases Run.enter_on p r₁ with ⟨m, hm, hok, hmodel⟩ | ⟨e, _, hfail⟩
        · rw [Run.on_bind_ok (Prod.ext hok rfl)]
          refine ⟨[.enter p], ?_⟩
          rw [Model.moved_one_of_ok (v := .enter p) hm]
          exact hmodel
        · rw [Run.on_bind_error hfail]
          exact ⟨[], rfl⟩

theorem cursors_moved (ss : List Selection) (r : RunState) : ∃ vs, (cursors ss r).model = r.model.moved vs := by
  induction ss generalizing r with
  | nil => exact ⟨[], rfl⟩
  | cons s ss ih =>
    obtain ⟨vs, hvs⟩ := cursor_moved s r
    obtain ⟨ws, hws⟩ := ih ((Handler.cursor.execute s).on r).2
    refine ⟨vs ++ ws, ?_⟩
    rw [Model.moved_append, ← hvs]
    exact hws

/-- Paths that begin with a variable or at the root do not depend on where the cursor is, only on
whether there is something under it. Under a cursor with something under it they lead where they
lead from the root, and elsewhere to nothing. So do they after commands that move the cursor, and a
variable is then its latest binding. -/
theorem absolute_of_cursor {p : Path} (hp : p.Absolute) (m : Model) :
    (∀ vs, (m.moved vs).resolve p = if (m.moved vs).current.isSome then m.atRoot.resolve p else none) ∧
      (∀ vs ws, (m.moved vs).resolve p = (m.moved ws).resolve p ↔
        (m.moved vs).current.isSome = (m.moved ws).current.isSome ∨ m.atRoot.resolve p = none) ∧
      ∀ (r : RunState) (ss : List Selection), r.model = m → ∀ m', (cursors ss r).model = m' →
        m'.resolve p = (if m'.current.isSome then m.atRoot.resolve p else none) ∧
          ∀ name, m'.resolve ⟨[.variableName name]⟩ = if m'.current.isSome then m.scope.get? name else none := by
  refine ⟨fun vs ↦ ?_, fun vs ws ↦ ?_, fun r ss hr m' hm' ↦ ?_⟩
  · rw [Model.atRoot_resolve _ hp, Model.atRoot_moved]
  · rw [Model.resolve_eq_iff (by rw [Model.atRoot_moved, Model.atRoot_moved]) hp, Model.atRoot_moved]
  · obtain ⟨vs, hvs⟩ := cursors_moved ss r
    obtain rfl : m' = m.moved vs := by rw [← hm', hvs, hr]
    refine ⟨by rw [Model.atRoot_resolve _ hp, Model.atRoot_moved], fun name ↦ ?_⟩
    have hname : (Path.mk [.variableName name]).Absolute :=
      ⟨by simp [Path.Onward], .variableName name, rfl, .inl rfl⟩
    have hbinding : m.atRoot.resolve ⟨[.variableName name]⟩ = m.scope.get? name := by
      change ((m.scope.get? name).map fun d ↦ [d]).bind _ >>= List.head? = _
      cases m.scope.get? name <;> rfl
    rw [Model.atRoot_resolve _ hname, Model.atRoot_moved, hbinding]

theorem absolute_of_cursor_data :
    ((Model.ofData (.map [("a", .leaf (.int 5))])).moved [.enter ⟨[.name "a"]⟩]).resolve ⟨[.root, .name "a"]⟩ =
      ((Model.ofData (.map [("a", .leaf (.int 5))])).moved [.set ⟨[]⟩]).resolve ⟨[.root, .name "a"]⟩ :=
  ((absolute_of_cursor ⟨by simp [Path.Onward], .root, rfl, .inr rfl⟩ _).2.1 _ _).2 (.inl rfl)

example : ((Model.ofData (.map [])).moved [.enter ⟨[.name "missing"]⟩]).resolve ⟨[.root]⟩ = none := rfl

end Handler

end Stencil
