import Stencil.Proofs.Run.Search
import Stencil.Command.Missing
/-!
Steps that leave the document alone. What they give and what they change depends on the desk only,
so that they do the same wherever a command stands.
-/

namespace Stencil

/-- A later state of a run, up to which the document stayed as it was. -/
structure RunState.Idles (r r' : RunState) : Prop extends Leads r r' where
  document : r'.document = r.document

namespace RunState.Idles

variable {r r' r'' : RunState}

theorem refl (r : RunState) : r.Idles r := ⟨.refl r, rfl⟩

theorem trans (h : r.Idles r') (k : r'.Idles r'') : r.Idles r'' :=
  ⟨h.toLeads.trans k.toLeads, k.document.trans h.document⟩

end RunState.Idles

namespace Run

variable {α β : Type}

/-- A step that works with the desk alone. -/
def Plain (x : Run α) : Prop := ∃ f : Desk → Except RunError α × Desk, ∀ r, ∃ r', x.on r = ((f r.desk).1, r') ∧
  r'.desk = (f r.desk).2 ∧ r.Idles r'

theorem plain_pure (a : α) : Plain (pure a : Run α) :=
  ⟨fun k ↦ (.ok a, k), fun r ↦ ⟨r, rfl, rfl, .refl r⟩⟩

theorem plain_throw (e : RunError) : Plain (throw e : Run α) :=
  ⟨fun k ↦ (.error e, k), fun r ↦ ⟨r, rfl, rfl, .refl r⟩⟩

theorem plain_ofExcept {ε : Type} (wrap : ε → RunError) (x : Except ε α) : Plain (ofExcept wrap x) := by
  cases x with
  | ok a => exact plain_pure a
  | error e => exact plain_throw (wrap e)

/-- What two steps give that work with the desk alone, one after the other. -/
def andThen (f : Desk → Except RunError α × Desk) (g : α → Desk → Except RunError β × Desk) (k : Desk) :
    Except RunError β × Desk :=
  match f k with
  | (.ok a, k) => g a k
  | (.error e, k) => (.error e, k)

theorem plain_bind {x : Run α} {k : α → Run β} (hx : Plain x) (hk : ∀ a, Plain (k a)) : Plain (x >>= k) := by
  obtain ⟨f, hf⟩ := hx
  choose g hg using hk
  refine ⟨andThen f g, fun r ↦ ?_⟩
  obtain ⟨r₁, hon, hdesk, hidles⟩ := hf r
  rcases hfr : f r.desk with ⟨e | a, k⟩
  · rw [hfr] at hon hdesk
    rw [andThen, hfr]
    exact ⟨r₁, on_bind_error hon, hdesk, hidles⟩
  · rw [hfr] at hon hdesk
    rw [andThen, hfr]
    obtain ⟨r₂, hon₂, hdesk₂, hidles₂⟩ := hg a r₁
    obtain rfl : r₁.desk = k := hdesk
    exact ⟨r₂, (on_bind_ok hon).trans hon₂, hdesk₂, hidles.trans hidles₂⟩

theorem plain_seq {x : Run α} {y : Run β} (hx : Plain x) (hy : Plain y) : Plain (do let _ ← x; y) :=
  plain_bind hx fun _ ↦ hy

theorem plain_model : Plain model := ⟨fun k ↦ (.ok k.model, k), fun r ↦ ⟨r, rfl, rfl, .refl r⟩⟩

theorem plain_setModel (m : Model) : Plain (setModel m) :=
  ⟨fun k ↦ (.ok (), { k with model := m }), fun r ↦ ⟨_, rfl, rfl, ⟨⟨[], rfl, by simp⟩, .refl _, rfl⟩, rfl⟩⟩

theorem plain_log {e : Event} (he : e.merges = false) : Plain (log e) :=
  ⟨fun k ↦ (.ok (), k), fun r ↦ ⟨_, rfl, rfl, ⟨⟨[e], rfl, by simpa using he⟩, .refl _, rfl⟩, rfl⟩⟩

theorem plain_push (name : String) (value : Datum) : Plain (push name value) :=
  plain_bind plain_model fun _ ↦ plain_bind (plain_ofExcept _ _) plain_setModel

theorem plain_enter (p : Path) : Plain (enter p) :=
  plain_bind plain_model fun _ ↦ plain_bind (plain_ofExcept _ _) fun _ ↦ plain_seq (plain_log rfl) (plain_setModel _)

theorem plain_filterMapM {γ : Type} {f : γ → Run (Option α)} (hf : ∀ c, Plain (f c)) (cs : List γ) :
    Plain (cs.filterMapM f) := by
  induction cs with
  | nil => exact plain_pure []
  | cons c cs ih =>
    rw [List.filterMapM_cons]
    refine plain_bind (hf c) fun a? ↦ ?_
    cases a? with
    | none => exact ih
    | some a => exact plain_bind ih fun as ↦ plain_pure (a :: as)

/-! ### Services -/

theorem plain_services (f : Services → Services) :
    Plain (modify fun r ↦ { r with services := f r.services } : Run Unit) :=
  ⟨fun k ↦ (.ok (), { k with services := f k.services }), fun r ↦
    ⟨_, rfl, rfl, ⟨⟨[], rfl, by simp⟩, .refl _, rfl⟩, rfl⟩⟩

theorem plain_read (g : Services → Run α) (hg : ∀ s, Plain (g s)) :
    Plain (do let r ← get; g r.services : Run α) := by
  choose f hf using hg
  exact ⟨fun k ↦ f k.services k, fun r ↦ hf r.services r⟩

theorem plain_takeFlush : Plain takeFlush := by
  refine ⟨fun k ↦ (.ok (k.services.flushes.headD false),
    { k with services := { k.services with flushes := k.services.flushes.tail } }), fun r ↦ ?_⟩
  obtain ⟨document, model, aliases, ⟨sizes, fragments, fetched, flushes⟩, report, searches, nextSerial, log⟩ := r
  cases flushes with
  | nil => exact ⟨_, rfl, rfl, .refl _⟩
  | cons b bs => exact ⟨_, rfl, rfl, ⟨⟨[], rfl, by simp⟩, .refl _, rfl⟩, rfl⟩

theorem plain_letFlush (flush : Services → Services) : Plain (letFlush flush) := by
  refine plain_bind plain_takeFlush fun b ↦ ?_
  cases b with
  | false => exact plain_pure ()
  | true => exact plain_services flush

theorem plain_fetch (p : Provider) (handle : String) : Plain (fetch p handle) := by
  refine plain_seq (plain_services fun s ↦ { s with fetched := handle :: s.fetched })
    (plain_bind (plain_ofExcept _ _) fun bytes ↦ ?_)
  cases p.logsReads with
  | false => exact plain_pure bytes
  | true => exact plain_bind (plain_ofExcept _ _) fun id ↦ plain_seq (plain_log rfl) (plain_pure bytes)

theorem plain_identify (p : Provider) (handle : String) : Plain (identify p handle) := plain_ofExcept _ _

theorem plain_fetchText (p : Provider) (handle : String) : Plain (fetchText p handle) :=
  plain_bind (plain_fetch p handle) fun _ ↦ plain_ofExcept _ _

/-- The size kept for an identity, else that of the image behind a handle. -/
def keptSize (p : Provider) (handle id : String) (s : Services) : Run PixelSize :=
  match s.sizes.get? id with
  | some size => pure size
  | none => do
    let bytes ← fetch p handle
    match pixelSize? bytes with
    | none => throw (.resource handle .unknownImageFormat)
    | some size =>
      modify fun s ↦ { s with services := { s.services with sizes := s.services.sizes.put id size } }
      return size

/-- The text kept for an identity, else that of the fragment behind a handle. -/
def keptText (p : Provider) (handle id : String) (s : Services) : Run String :=
  match s.fragments.get? id with
  | some text => pure text
  | none => do
    let text ← fetchText p handle
    modify fun s ↦ { s with services := { s.services with fragments := s.services.fragments.put id text } }
    return text

theorem plain_imageSize (p : Provider) (handle : String) : Plain (imageSize p handle) := by
  refine plain_bind (plain_identify p handle) fun id ↦ plain_seq (plain_letFlush _)
    (plain_read (keptSize p handle id) fun s ↦ ?_)
  rw [keptSize]
  cases s.sizes.get? id with
  | some size => exact plain_pure size
  | none =>
    refine plain_bind (plain_fetch p handle) fun bytes ↦ ?_
    cases pixelSize? bytes with
    | none => exact plain_throw _
    | some size => exact plain_seq (plain_services fun s ↦ { s with sizes := s.sizes.put id size }) (plain_pure size)

theorem plain_fragmentText (p : Provider) (handle : String) : Plain (fragmentText p handle) := by
  refine plain_bind (plain_identify p handle) fun id ↦ plain_seq (plain_letFlush _)
    (plain_read (keptText p handle id) fun s ↦ ?_)
  rw [keptText]
  cases s.fragments.get? id with
  | some text => exact plain_pure text
  | none =>
    exact plain_bind (plain_fetchText p handle) fun text ↦
      plain_seq (plain_services fun s ↦ { s with fragments := s.fragments.put id text }) (plain_pure text)

end Run

namespace Selection

variable (s : Selection)

theorem plain_requireStr (key : String) : (s.requireStr key).Plain := Run.plain_ofExcept _ _

theorem plain_source? (key : String) : (s.source? key).Plain := Run.plain_ofExcept _ _

theorem plain_value? (key : String) : (s.value? key).Plain :=
  Run.plain_bind (s.plain_source? key) fun _ ↦ Run.plain_bind Run.plain_model fun _ ↦ Run.plain_pure _

end Selection

end Stencil
