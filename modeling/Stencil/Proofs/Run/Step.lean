import Stencil.Proofs.Attempt
import Stencil.Run.Scan
/-!
Steps of a run taken one after another: what a step gives in a state, and the state it leaves.
-/

namespace Stencil

def RunState.sought (r : RunState) (s : Search) : RunState :=
  { r with
    document := s.document
    searches := r.searches + 1
    log := match s.split? with
      | some (node, marker) => .splittingText node marker :: r.log
      | none => r.log }

namespace Run

variable {α β : Type}

/-- What a step gives in a state, and the state it leaves. -/
def on (x : Run α) (r : RunState) : Except RunError α × RunState := x.run.run r

@[simp] theorem on_pure (a : α) (r : RunState) : (pure a : Run α).on r = (.ok a, r) := rfl

@[simp] theorem on_throw (e : RunError) (r : RunState) : (throw e : Run α).on r = (.error e, r) := rfl

theorem on_bind (x : Run α) (f : α → Run β) (r : RunState) :
    (x >>= f).on r = match x.on r with
      | (.ok a, r') => (f a).on r'
      | (.error e, r') => (.error e, r') := by
  have hbind : (x >>= f).on r = ExceptT.bindCont f (x.on r).1 (x.on r).2 := rfl
  rw [hbind]
  rcases x.on r with ⟨a | a, r'⟩ <;> rfl

theorem on_bind_ok {x : Run α} {f : α → Run β} {r r' : RunState} {a : α} (h : x.on r = (.ok a, r')) :
    (x >>= f).on r = (f a).on r' := by rw [on_bind, h]

theorem on_bind_error {x : Run α} {f : α → Run β} {r r' : RunState} {e : RunError}
    (h : x.on r = (.error e, r')) : (x >>= f).on r = (.error e, r') := by rw [on_bind, h]

theorem on_bind_eq_ok {x : Run α} {f : α → Run β} {r r' : RunState} {b : β}
    (h : (x >>= f).on r = (.ok b, r')) : ∃ a r₁, x.on r = (.ok a, r₁) ∧ (f a).on r₁ = (.ok b, r') := by
  rw [on_bind] at h
  rcases hx : x.on r with ⟨a | a, r₁⟩
  · rw [hx] at h
    simp at h
  · rw [hx] at h
    exact ⟨a, r₁, rfl, h⟩

@[simp] theorem on_get (r : RunState) : (get : Run RunState).on r = (.ok r, r) := rfl

@[simp] theorem on_set (r s : RunState) : (set s : Run Unit).on r = (.ok (), s) := rfl

@[simp] theorem on_modify (f : RunState → RunState) (r : RunState) :
    (modify f : Run Unit).on r = (.ok (), f r) := rfl

@[simp] theorem on_log (e : Event) (r : RunState) : (log e).on r = (.ok (), { r with log := e :: r.log }) := rfl

@[simp] theorem on_document (r : RunState) : document.on r = (.ok r.document, r) := rfl

@[simp] theorem on_setDocument (d : Document) (r : RunState) :
    (setDocument d).on r = (.ok (), { r with document := d }) := rfl

@[simp] theorem on_model (r : RunState) : model.on r = (.ok r.model, r) := rfl

@[simp] theorem on_setModel (m : Model) (r : RunState) : (setModel m).on r = (.ok (), { r with model := m }) := rfl

@[simp] theorem on_ofExcept_ok {ε : Type} (wrap : ε → RunError) (a : α) (r : RunState) :
    (ofExcept wrap (.ok a)).on r = (.ok a, r) := rfl

@[simp] theorem on_ofExcept_error {ε : Type} (wrap : ε → RunError) (e : ε) (r : RunState) :
    (ofExcept wrap (.error e) : Run α).on r = (.error (wrap e), r) := rfl

theorem on_ofExcept_eq_ok {ε : Type} {wrap : ε → RunError} {x : Except ε α} {r r' : RunState} {a : α}
    (h : (ofExcept wrap x).on r = (.ok a, r')) : x = .ok a ∧ r' = r := by
  cases x with
  | error e => simp at h
  | ok b =>
    simp only [on_ofExcept_ok, Prod.mk.injEq, Except.ok.injEq] at h
    exact ⟨by rw [h.1], h.2.symm⟩

theorem on_edit {f : Document → Except DocumentError Document} {r : RunState} {e : Document}
    (h : f r.document = .ok e) : (edit f).on r = (.ok (), { r with document := e }) := by
  rw [edit, on_bind_ok (on_document r), h, on_bind_ok (on_ofExcept_ok _ _ _), on_setDocument]

theorem on_edit_eq_ok {f : Document → Except DocumentError Document} {r r' : RunState} (h : (edit f).on r = (.ok (), r')) :
    ∃ e, f r.document = .ok e ∧ r' = { r with document := e } := by
  rw [edit, on_bind_ok (on_document r)] at h
  obtain ⟨e, r₁, hexcept, hset⟩ := on_bind_eq_ok h
  obtain ⟨hok, rfl⟩ := on_ofExcept_eq_ok hexcept
  exact ⟨e, hok, (Prod.mk.inj hset).2.symm⟩

theorem on_editFor {f : Document → Except DocumentError (α × Document)} {r : RunState} {a : α} {e : Document}
    (h : f r.document = .ok (a, e)) : (editFor f).on r = (.ok a, { r with document := e }) := by
  rw [editFor, on_bind_ok (on_document r), h, on_bind_ok (on_ofExcept_ok _ _ _)]
  rfl

theorem on_search (t : Toolkit) (id : NodeId) (r : RunState) :
    (search t id).on r = ((t.search (r.searches + 1) r.document id).result.mapError .document,
      r.sought (t.search (r.searches + 1) r.document id)) := by
  rw [search, on_bind_ok (on_get r), on_bind_ok (on_set _ _)]
  rcases t.search (r.searches + 1) r.document id with ⟨d, _ | ⟨node, marker⟩, e | found?⟩ <;> rfl

theorem on_tryCatch (x : Run α) (f : RunError → Run α) (r : RunState) :
    (tryCatch x f).on r = match x.on r with
      | (.ok a, r') => (.ok a, r')
      | (.error e, r') => (f e).on r' := by
  have hcatch : (tryCatch x f).on r = (ExceptT.tryCatch x f).run.run r := rfl
  have hx : StateT.run x r = x.on r := rfl
  rw [hcatch, ExceptT.tryCatch, ExceptT.run_mk, StateT.run_bind]
  simp only [hx]
  rcases x.on r with ⟨a | a, r'⟩ <;> rfl

theorem on_attempt (x : Run α) (r : RunState) : (attempt x).on r = (.ok (x.on r).1, (x.on r).2) := rfl

end Run

end Stencil
