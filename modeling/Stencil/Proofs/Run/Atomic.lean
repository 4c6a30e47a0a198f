import Stencil.Command.Missing
import Stencil.Proofs.Run.Step
/-!
Steps that leave no trace when they fail. A step that only looks changes neither the document nor
the model nor the aliases; an edit that is refused changes nothing; and once a step has changed
something, what follows it must not fail.
-/

namespace Stencil

/-- A state with the same document, variables, cursor and aliases. -/
structure RunState.Same (r r' : RunState) : Prop where
  document : r'.document = r.document
  model : r'.model = r.model
  aliases : r'.aliases = r.aliases

namespace RunState.Same

variable {r r' r'' : RunState}

theorem refl (r : RunState) : r.Same r := ⟨rfl, rfl, rfl⟩

theorem trans (h : r.Same r') (k : r'.Same r'') : r.Same r'' :=
  ⟨k.document.trans h.document, k.model.trans h.model, k.aliases.trans h.aliases⟩

end RunState.Same

namespace Run

variable {α β : Type} {x : Run α} {k : α → Run β}

/-- A step that changes neither the document nor the model nor the aliases. -/
def Quiet (x : Run α) : Prop := ∀ r : RunState, r.Same (x.on r).2

/-- A step that, when it fails, leaves the document, the model and the aliases as they were. -/
def Atomic (x : Run α) : Prop := ∀ (r : RunState) e r', x.on r = (.error e, r') → r.Same r'

def Total (x : Run α) : Prop := ∀ r, ∃ a r', x.on r = (.ok a, r')

/-! ### Steps that only look -/

theorem quiet_pure (a : α) : Quiet (pure a : Run α) := RunState.Same.refl

theorem quiet_throw (e : RunError) : Quiet (throw e : Run α) := RunState.Same.refl

theorem quiet_ofExcept {ε : Type} (wrap : ε → RunError) (x : Except ε α) : Quiet (ofExcept wrap x) := by
  cases x with
  | ok a => exact quiet_pure a
  | error e => exact quiet_throw (wrap e)

theorem quiet_bind (hx : Quiet x) (hk : ∀ a, Quiet (k a)) : Quiet (x >>= k) := fun r ↦ by
  have hfirst := hx r
  rcases hon : x.on r with ⟨e | a, r₁⟩
  · rw [hon] at hfirst
    rw [on_bind_error hon]
    exact hfirst
  · rw [hon] at hfirst
    rw [on_bind_ok hon]
    exact hfirst.trans (hk a r₁)

theorem quiet_get : Quiet get := RunState.Same.refl

theorem quiet_document : Quiet document := RunState.Same.refl

theorem quiet_model : Quiet model := RunState.Same.refl

theorem quiet_log (e : Event) : Quiet (log e) := fun _ ↦ ⟨rfl, rfl, rfl⟩

theorem quiet_services (f : Services → Services) :
    Quiet (modify fun r ↦ { r with services := f r.services } : Run Unit) := fun _ ↦ ⟨rfl, rfl, rfl⟩

theorem quiet_filterMapM {γ : Type} {f : γ → Run (Option α)} (hf : ∀ c, Quiet (f c)) (cs : List γ) :
    Quiet (cs.filterMapM f) := by
  induction cs with
  | nil => exact quiet_pure []
  | cons c cs ih =>
    rw [List.filterMapM_cons]
    refine quiet_bind (hf c) fun a? ↦ ?_
    cases a? with
    | none => exact ih
    | some a => exact quiet_bind ih fun as ↦ quiet_pure (a :: as)

theorem quiet_takeFlush : Quiet takeFlush := fun r ↦ by
  obtain ⟨document, model, aliases, ⟨sizes, fragments, fetched, flushes⟩, report, searches, nextSerial, log⟩ := r
  cases flushes with
  | nil => exact .refl _
  | cons b bs => exact ⟨rfl, rfl, rfl⟩

theorem quiet_letFlush (flush : Services → Services) : Quiet (letFlush flush) := by
  refine quiet_bind quiet_takeFlush fun b ↦ ?_
  cases b with
  | false => exact quiet_pure ()
  | true => exact quiet_services flush

theorem quiet_fetch (p : Provider) (handle : String) : Quiet (fetch p handle) := by
  refine quiet_bind (quiet_services fun s ↦ { s with fetched := handle :: s.fetched }) fun _ ↦
    quiet_bind (quiet_ofExcept _ _) fun bytes ↦ ?_
  cases p.logsReads with
  | false => exact quiet_pure bytes
  | true => exact quiet_bind (quiet_ofExcept _ _) fun id ↦ quiet_bind (quiet_log _) fun _ ↦ quiet_pure bytes

theorem quiet_identify (p : Provider) (handle : String) : Quiet (identify p handle) := quiet_ofExcept _ _

theorem quiet_fetchText (p : Provider) (handle : String) : Quiet (fetchText p handle) :=
  quiet_bind (quiet_fetch p handle) fun _ ↦ quiet_ofExcept _ _

theorem quiet_imageSize (p : Provider) (handle : String) : Quiet (imageSize p handle) := by
  refine quiet_bind (quiet_identify p handle) fun id ↦ quiet_bind (quiet_letFlush _) fun _ ↦
    quiet_bind quiet_get fun r ↦ ?_
  cases r.services.sizes.get? id with
  | some size => exact quiet_pure size
  | none =>
    refine quiet_bind (quiet_fetch p handle) fun bytes ↦ ?_
    cases pixelSize? bytes with
    | none => exact quiet_throw _
    | some size =>
      exact quiet_bind (quiet_services fun s ↦ { s with sizes := s.sizes.put id size }) fun _ ↦ quiet_pure size

theorem quiet_fragmentText (p : Provider) (handle : String) : Quiet (fragmentText p handle) := by
  refine quiet_bind (quiet_identify p handle) fun id ↦ quiet_bind (quiet_letFlush _) fun _ ↦
    quiet_bind quiet_get fun r ↦ ?_
  cases r.services.fragments.get? id with
  | some text => exact quiet_pure text
  | none =>
    exact quiet_bind (quiet_fetchText p handle) fun text ↦
      quiet_bind (quiet_services fun s ↦ { s with fragments := s.fragments.put id text }) fun _ ↦ quiet_pure text

/-! ### Steps that do not fail -/

theorem total_pure (a : α) : Total (pure a : Run α) := fun r ↦ ⟨a, r, rfl⟩

theorem total_log (e : Event) : Total (log e) := fun _ ↦ ⟨(), _, rfl⟩

theorem total_modify (f : RunState → RunState) : Total (modify f) := fun _ ↦ ⟨(), _, rfl⟩

theorem total_document : Total document := fun r ↦ ⟨r.document, r, rfl⟩

theorem total_setDocument (d : Document) : Total (setDocument d) := fun _ ↦ ⟨(), _, rfl⟩

theorem total_setModel (m : Model) : Total (setModel m) := fun _ ↦ ⟨(), _, rfl⟩

theorem total_bind (hx : Total x) (hk : ∀ a, Total (k a)) : Total (x >>= k) := fun r ↦ by
  obtain ⟨a, r₁, hon⟩ := hx r
  rw [on_bind_ok hon]
  exact hk a r₁

/-! ### Steps that leave no trace when they fail -/

theorem Quiet.atomic (hx : Quiet x) : Atomic x := fun r e r' hon ↦ by
  have := hx r
  rwa [hon] at this

theorem Total.atomic (hx : Total x) : Atomic x := fun r e r' hon ↦ by
  obtain ⟨a, r₁, hok⟩ := hx r
  simp [hok] at hon

/-- What only looks may stand in front of a step that leaves no trace. -/
theorem Quiet.atomic_bind (hx : Quiet x) (hk : ∀ a, Atomic (k a)) : Atomic (x >>= k) := fun r e r' hon ↦ by
  have hfirst := hx r
  rcases hx₁ : x.on r with ⟨e₁ | a, r₁⟩
  · rw [on_bind_error hx₁] at hon
    rw [hx₁] at hfirst
    exact (Prod.mk.inj hon).2 ▸ hfirst
  · rw [on_bind_ok hx₁] at hon
    rw [hx₁] at hfirst
    exact hfirst.trans (hk a r₁ e r' hon)

/-- What cannot fail may stand behind a step that leaves no trace. -/
theorem Atomic.bind_total (hx : Atomic x) (hk : ∀ a, Total (k a)) : Atomic (x >>= k) := fun r e r' hon ↦ by
  rcases hx₁ : x.on r with ⟨e₁ | a, r₁⟩
  · rw [on_bind_error hx₁] at hon
    exact (Prod.mk.inj hon).2 ▸ hx r e₁ r₁ hx₁
  · rw [on_bind_ok hx₁] at hon
    obtain ⟨b, r₂, hok⟩ := hk a r₁
    simp [hok] at hon

theorem atomic_pure (a : α) : Atomic (pure a : Run α) := (quiet_pure a).atomic

theorem atomic_throw (e : RunError) : Atomic (throw e : Run α) := (quiet_throw e).atomic

theorem atomic_edit (f : Document → Except DocumentError Document) : Atomic (edit f) :=
  quiet_document.atomic_bind fun _ ↦ (quiet_ofExcept _ _).atomic_bind fun _ ↦ (total_setDocument _).atomic

theorem atomic_editFor (f : Document → Except DocumentError (α × Document)) : Atomic (editFor f) :=
  quiet_document.atomic_bind fun _ ↦ (quiet_ofExcept _ _).atomic_bind fun _ ↦
    (total_bind (total_setDocument _) fun _ ↦ total_pure _).atomic

theorem atomic_push (name : String) (value : Datum) : Atomic (push name value) :=
  quiet_model.atomic_bind fun _ ↦ (quiet_ofExcept _ _).atomic_bind fun _ ↦ (total_setModel _).atomic

theorem atomic_enter (p : Path) : Atomic (enter p) :=
  quiet_model.atomic_bind fun _ ↦ (quiet_ofExcept _ _).atomic_bind fun _ ↦
    (total_bind (total_log _) fun _ ↦ total_setModel _).atomic

end Run

namespace Selection

open Run

variable (s : Selection)

theorem quiet_requireStr (key : String) : (s.requireStr key).Quiet := quiet_ofExcept _ _

theorem quiet_source? (key : String) : (s.source? key).Quiet := quiet_ofExcept _ _

theorem quiet_value? (key : String) : (s.value? key).Quiet :=
  quiet_bind (s.quiet_source? key) fun _ ↦ quiet_bind quiet_model fun _ ↦ quiet_pure _

theorem atomic_removePlaceholder (id : NodeId) : (removePlaceholder id).Atomic :=
  quiet_document.atomic_bind fun _ ↦ (atomic_edit _).bind_total fun _ ↦ total_pure _

theorem atomic_deletePlaceholder : s.deletePlaceholder.Atomic := by
  rw [deletePlaceholder]
  cases s.toolkit? with
  | none =>
    exact quiet_document.atomic_bind fun _ ↦ (quiet_log _).atomic_bind fun _ ↦
      (atomic_edit _).bind_total fun _ ↦ total_pure _
  | some t => exact (atomic_removePlaceholder s.node).bind_total fun _ ↦ total_pure _

theorem atomic_remove : s.remove.Atomic := s.atomic_deletePlaceholder.bind_total fun _ ↦ total_pure _

theorem atomic_replaceWithText (text : String) : (s.replaceWithText text).Atomic := by
  rw [replaceWithText]
  split
  · exact atomic_pure none
  · refine quiet_document.atomic_bind fun d ↦ ?_
    split
    · exact (atomic_edit _).bind_total fun _ ↦ total_pure _
    · exact atomic_pure none

theorem atomic_write (text : String) : (s.write text).Atomic :=
  (s.atomic_replaceWithText text).bind_total fun _ ↦ total_pure _

theorem atomic_writeMissing : s.writeMissing.Atomic := by
  refine (quiet_ofExcept _ _).atomic_bind fun policy ↦ ?_
  cases policy with
  | empty => exact s.atomic_write _
  | fallback => exact s.atomic_write _
  | keep => exact atomic_pure _
  | delete => exact s.atomic_remove
  | fail => exact atomic_throw _

theorem atomic_insertImage (handle name : String) (policy : SizePolicy) : (s.insertImage handle name policy).Atomic := by
  rw [insertImage]
  split
  · exact atomic_pure none
  · exact (quiet_identify _ _).atomic_bind fun _ ↦ (quiet_imageSize _ _).atomic_bind fun _ ↦
      (atomic_editFor _).bind_total fun _ ↦ total_bind total_document fun _ ↦ total_pure _

end Selection

end Stencil
