import Stencil.Proofs.Numbering.Toolkit
import Stencil.Proofs.Run.Fair
/-!
Steps of two runs side by side: of one on a document, and of another on the same document under a higher
number. They come to the same, whatever each keeps of resources; a handle that one gives, the other
gives under the higher number.
-/

namespace Stencil

variable {k : ℕ}

def RunError.shift (k : ℕ) : RunError → RunError
  | .document error => .document (error.shift k)
  | e => e

def Finding.shift (k : ℕ) (f : Finding) : Finding := { f with error := f.error.shift k }

def Report.shift (k : ℕ) (r : Report) : Report := { r with findings := r.findings.map (.shift k) }

/-- An attempt whose error, if it is one, names no handle. -/
def Unnumbered {α : Type} (x : Except RunError α) : Prop := ∀ k, x = exceptMap (.shift k) id x

namespace Unnumbered

variable {α β ε : Type} {x : Except RunError α}

theorem ok (a : α) : Unnumbered (.ok a) := fun _ ↦ rfl

theorem bind {h : α → Except RunError β} (hx : Unnumbered x) (hh : ∀ a, Unnumbered (h a)) : Unnumbered (x >>= h) :=
  fun k ↦ exceptMap_bind (hx k) fun a ↦ hh a k

theorem map (f : α → β) (hx : Unnumbered x) : Unnumbered (x.map f) := fun k ↦ by
  have hfirst := hx k
  cases x with
  | ok a => rfl
  | error e => exact congrArg Except.error (Except.error.inj hfirst)

end Unnumbered

/-- Two states of runs, the second on the document of the first under a number that is `k` higher. What
each keeps of resources is what the provider gives. -/
structure RunState.Shifted (p : Provider) (k : ℕ) (r r' : RunState) : Prop where
  document : r'.document = r.document.shift k
  model : r'.model = r.model
  aliases : r'.aliases = r.aliases
  report : r'.report = r.report.shift k
  nextSerial : r'.nextSerial = r.nextSerial + k
  left : r.services.Coherent p
  right : r'.services.Coherent p

theorem RunState.Shifted.served {p : Provider} {r r' s s' : RunState} (h : r.Shifted p k r') (hs : r.Served p s) (hs' : r'.Served p s') :
    s.Shifted p k s' where
  document := by rw [hs'.document, hs.document, h.document]
  model := by rw [hs'.model, hs.model, h.model]
  aliases := by rw [hs'.aliases, hs.aliases, h.aliases]
  report := by rw [hs'.report, hs.report, h.report]
  nextSerial := by rw [hs'.nextSerial, hs.nextSerial, h.nextSerial]
  left := hs.services
  right := hs'.services

namespace Run

variable {α α' β β' γ γ' : Type} {p : Provider} {f : α → α'} {g : β → β'} {x : Run α} {x' : Run α'}

/-- Steps that come to the same in such states: what the first gives, the second gives as `f` says. -/
def Shifts (p : Provider) (k : ℕ) (f : α → α') (x : Run α) (x' : Run α') : Prop :=
  ∀ r r' : RunState, r.Shifted p k r' →
    (x'.on r').1 = exceptMap (.shift k) f (x.on r).1 ∧ (x.on r).2.Shifted p k (x'.on r').2

/-! ### Single steps -/

theorem shifts_pure (a : α) : Shifts p k f (pure a) (pure (f a)) := fun _ _ h ↦ ⟨rfl, h⟩

theorem shifts_throw (e : RunError) : Shifts p k f (throw e) (throw (e.shift k)) := fun _ _ h ↦ ⟨rfl, h⟩

theorem shifts_ofExcept {ε ε' : Type} {e : ε → ε'} {wrap : ε → RunError} {wrap' : ε' → RunError}
    (hwrap : ∀ reason, wrap' (e reason) = (wrap reason).shift k) {y : Except ε α} {y' : Except ε' α'} (hy : y' = exceptMap e f y) :
    Shifts p k f (ofExcept wrap y) (ofExcept wrap' y') := by
  subst hy
  cases y with
  | ok a => exact shifts_pure a
  | error reason => exact fun r r' h ↦ ⟨congrArg Except.error (hwrap reason), h⟩

theorem shifts_refusable {y : Except DocumentError α} {y' : Except DocumentError α'} (hy : y' = exceptMap (.shift k) f y) :
    Shifts p k f (ofExcept .document y) (ofExcept .document y') := by
  refine shifts_ofExcept (fun reason ↦ ?_) hy
  rfl

theorem shifts_wrapped {ε : Type} {wrap : ε → RunError} (hwrap : ∀ k reason, (wrap reason).shift k = wrap reason)
    {y : Except ε α} {y' : Except ε α'} (hy : y' = exceptMap id f y) : Shifts p k f (ofExcept wrap y) (ofExcept wrap y') :=
  shifts_ofExcept (fun reason ↦ (hwrap k reason).symm) hy

theorem shifts_same {ε : Type} {wrap : ε → RunError} (hwrap : ∀ k reason, (wrap reason).shift k = wrap reason) (y : Except ε α) :
    Shifts p k id (ofExcept wrap y) (ofExcept wrap y) :=
  shifts_wrapped hwrap (by cases y <;> rfl)

theorem shifts_unnumbered {y : Except RunError α} (hy : Unnumbered y) : Shifts p k id (ofExcept id y) (ofExcept id y) := by
  refine shifts_ofExcept (fun reason ↦ ?_) (hy k)
  rfl

theorem shifts_bind {h : α → Run β} {h' : α' → Run β'} (hx : Shifts p k f x x') (hh : ∀ a, Shifts p k g (h a) (h' (f a))) :
    Shifts p k g (x >>= h) (x' >>= h') := by
  intro r r' hr
  obtain ⟨hresult, hshifted⟩ := hx r r' hr
  rcases hon : x.on r with ⟨e | a, r₁⟩ <;> rcases hon' : x'.on r' with ⟨e' | a', r₁'⟩ <;>
    rw [hon, hon'] at hresult hshifted <;> cases hresult
  · rw [on_bind_error hon, on_bind_error hon']
    exact ⟨rfl, hshifted⟩
  · rw [on_bind_ok hon, on_bind_ok hon']
    exact hh a r₁ r₁' hshifted

theorem shifts_get {h : RunState → Run β} {h' : RunState → Run β'} (hh : ∀ r r' : RunState, r.Shifted p k r' → Shifts p k g (h r) (h' r')) :
    Shifts p k g (get >>= h) (get >>= h') := fun r r' hr ↦ hh r r' hr r r' hr

theorem shifts_set {s s' : RunState} (hs : s.Shifted p k s') : Shifts p k id (set s) (set s') := fun _ _ _ ↦ ⟨rfl, hs⟩

theorem shifts_modify {u u' : RunState → RunState} (hu : ∀ r r' : RunState, r.Shifted p k r' → (u r).Shifted p k (u' r')) :
    Shifts p k id (modify u) (modify u') := fun r r' hr ↦ ⟨rfl, hu r r' hr⟩

theorem shifts_log (e e' : Event) : Shifts p k id (log e) (log e') := fun _ _ h ↦
  ⟨rfl, h.document, h.model, h.aliases, h.report, h.nextSerial, h.left, h.right⟩

theorem shifts_document : Shifts p k (.shift k) document document := fun _ _ h ↦ ⟨congrArg Except.ok h.document, h⟩

theorem shifts_setDocument (d : Document) : Shifts p k id (setDocument d) (setDocument (d.shift k)) := fun _ _ h ↦
  ⟨rfl, rfl, h.model, h.aliases, h.report, h.nextSerial, h.left, h.right⟩

theorem shifts_model : Shifts p k id model model := fun _ _ h ↦ ⟨congrArg Except.ok h.model, h⟩

theorem shifts_setModel (m : Model) : Shifts p k id (setModel m) (setModel m) := fun _ _ h ↦
  ⟨rfl, h.document, rfl, h.aliases, h.report, h.nextSerial, h.left, h.right⟩

theorem shifts_edit {u u' : Document → Except DocumentError Document} (hu : ∀ d, u' (d.shift k) = exceptMap (.shift k) (.shift k) (u d)) :
    Shifts p k id (edit u) (edit u') :=
  shifts_bind shifts_document fun d ↦ shifts_bind (shifts_refusable (hu d)) shifts_setDocument

theorem shifts_editFor {u : Document → Except DocumentError (α × Document)} {u' : Document → Except DocumentError (α' × Document)}
    (hu : ∀ d, u' (d.shift k) = exceptMap (.shift k) (Prod.map f (.shift k)) (u d)) : Shifts p k f (editFor u) (editFor u') :=
  shifts_bind shifts_document fun d ↦ shifts_bind (shifts_refusable (hu d)) fun ⟨a, e⟩ ↦
    shifts_bind (shifts_setDocument e) fun _ ↦ shifts_pure a

theorem shifts_change {u u' : Document → Document} (hu : ∀ d, u' (d.shift k) = (u d).shift k) :
    Shifts p k id (change u) (change u') :=
  shifts_bind shifts_document fun d ↦ hu d ▸ shifts_setDocument (u d)

theorem shifts_detach (node : NodeId) : Shifts p k id (detach node) (detach (node.shift k)) :=
  shifts_edit fun d ↦ d.detach_shift node

theorem shifts_push (name : String) (value : Datum) : Shifts p k id (push name value) (push name value) :=
  shifts_bind shifts_model fun _ ↦ shifts_bind (shifts_same (fun _ _ ↦ rfl) _) shifts_setModel

theorem shifts_enter (path : Path) : Shifts p k id (enter path) (enter path) :=
  shifts_bind shifts_model fun _ ↦ shifts_bind (shifts_same (fun _ _ ↦ rfl) _) fun _ ↦
    shifts_bind (shifts_log _ _) fun _ ↦ shifts_setModel _

theorem shifts_search (t : Delimiters) (node : NodeId) :
    Shifts p k (Option.map (.shift k)) (search (.ofDelimiters t) node) (search (.ofDelimiters t) (node.shift k)) := by
  refine shifts_get fun r r' hr ↦ ?_
  have hsearch : r'.document.search t (node.shift k) = (r.document.search t node).shift k := by
    rw [hr.document, Document.search_shift]
  dsimp only [Toolkit.ofDelimiters]
  rw [hsearch]
  obtain ⟨e, split?, result⟩ := r.document.search t node
  refine shifts_bind (shifts_set ⟨rfl, hr.model, hr.aliases, hr.report, hr.nextSerial, hr.left, hr.right⟩) fun _ ↦ ?_
  cases split? with
  | none => exact shifts_refusable rfl
  | some found => exact shifts_bind (shifts_log _ _) fun _ ↦ shifts_refusable rfl

/-! ### Failures and lists -/

theorem shifts_attempt (hx : Shifts p k f x x') : Shifts p k (exceptMap (.shift k) f) (attempt x) (attempt x') := fun r r' hr ↦
  ⟨congrArg Except.ok (hx r r' hr).1, (hx r r' hr).2⟩

theorem shifts_tryCatch {h : RunError → Run α} {h' : RunError → Run α'} (hx : Shifts p k f x x')
    (hh : ∀ e, Shifts p k f (h e) (h' (e.shift k))) : Shifts p k f (tryCatch x h) (tryCatch x' h') := by
  intro r r' hr
  obtain ⟨hresult, hshifted⟩ := hx r r' hr
  rw [on_tryCatch, on_tryCatch]
  rcases hon : x.on r with ⟨e | a, r₁⟩ <;> rcases hon' : x'.on r' with ⟨e' | a', r₁'⟩ <;>
    rw [hon, hon'] at hresult hshifted <;> cases hresult
  · exact hh e r₁ r₁' hshifted
  · exact ⟨rfl, hshifted⟩

theorem shifts_mapM {e : γ → γ'} {h : γ → Run α} {h' : γ' → Run α'} (hh : ∀ c, Shifts p k f (h c) (h' (e c))) (cs : List γ) :
    Shifts p k (List.map f) (cs.mapM h) ((cs.map e).mapM h') := by
  induction cs with
  | nil => exact shifts_pure []
  | cons c cs ih =>
    rw [List.mapM_cons, List.map_cons, List.mapM_cons]
    exact shifts_bind (hh c) fun a ↦ shifts_bind ih fun as ↦ shifts_pure (a :: as)

theorem shifts_forM {e : γ → γ'} {h : γ → Run PUnit} {h' : γ' → Run PUnit} (hh : ∀ c, Shifts p k id (h c) (h' (e c))) (cs : List γ) :
    Shifts p k id (cs.forM h) ((cs.map e).forM h') := by
  induction cs with
  | nil => exact shifts_pure ()
  | cons c cs ih => exact shifts_bind (hh c) fun _ ↦ ih

theorem shifts_filterMapM {h : γ → Run (Option α)} (hh : ∀ c, Shifts p k id (h c) (h c)) (cs : List γ) :
    Shifts p k id (cs.filterMapM h) (cs.filterMapM h) := by
  induction cs with
  | nil => exact shifts_pure []
  | cons c cs ih =>
    rw [List.filterMapM_cons]
    refine shifts_bind (hh c) fun a? ↦ ?_
    cases a? with
    | none => exact ih
    | some a => exact shifts_bind ih fun as ↦ shifts_pure (a :: as)

/-! ### Resources -/

theorem Serves.shifts {a : Except RunError α} (hx : Serves p x a) (ha : Unnumbered a) : Shifts p k id x x := by
  intro r r' hr
  obtain ⟨hresult, hserved⟩ := hx r hr.left
  obtain ⟨hresult', hserved'⟩ := hx r' hr.right
  exact ⟨by rw [hresult, hresult']; exact ha k, hr.served hserved hserved'⟩

end Run

/-! ### What a provider gives -/

namespace Provider

variable (p : Provider) (handle : String)

theorem unnumbered_resource {α : Type} (y : Except ResourceCause α) : Unnumbered (y.mapError (.resource handle)) := fun _ ↦ by
  cases y <;> rfl

theorem unnumbered_bytes : Unnumbered (p.bytes handle) := by
  refine (unnumbered_resource handle _).bind fun bytes ↦ ?_
  cases p.logsReads with
  | false => exact .ok bytes
  | true => exact (unnumbered_resource handle _).bind fun _ ↦ .ok bytes

theorem unnumbered_text : Unnumbered (p.text handle) := by
  refine (p.unnumbered_bytes handle).bind fun bytes k ↦ ?_
  cases Text.decode bytes <;> rfl

theorem unnumbered_pixels : Unnumbered (p.pixels handle) := by
  refine (p.unnumbered_bytes handle).bind fun bytes k ↦ ?_
  cases pixelSize? bytes <;> rfl

end Provider

namespace Run

variable {p : Provider} (handle : String)

theorem shifts_identify : Shifts p k id (identify p handle) (identify p handle) := shifts_same (fun _ _ ↦ rfl) _

theorem shifts_imageSize : Shifts p k id (imageSize p handle) (imageSize p handle) :=
  (serves_imageSize handle).shifts ((Provider.unnumbered_resource handle _).bind fun _ ↦ p.unnumbered_pixels handle)

theorem shifts_fetchText : Shifts p k id (fetchText p handle) (fetchText p handle) :=
  (serves_fetchText handle).shifts (p.unnumbered_text handle)

theorem shifts_fragmentText : Shifts p k id (fragmentText p handle) (fragmentText p handle) :=
  (serves_fragmentText handle).shifts ((Provider.unnumbered_resource handle _).bind fun _ ↦ p.unnumbered_text handle)

theorem shifts_newDocument (text : String) : Shifts p k (.shift k) (newDocument text) (newDocument text) := fun r r' h ↦ by
  refine ⟨?_, h.document, h.model, h.aliases, h.report, ?_, h.left, h.right⟩
  · exact congrArg Except.ok ((congrArg (Document.ofText · text) h.nextSerial).trans (Document.ofText_shift _ _))
  · exact (congrArg (· + 1) h.nextSerial).trans (Nat.add_right_comm _ _ _)

end Run

end Stencil
