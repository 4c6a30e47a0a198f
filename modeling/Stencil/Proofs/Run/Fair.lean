import Stencil.Proofs.Entries
import Stencil.Proofs.Run.Plain
/-!
Steps that do not feel what is kept of resources. Caches hold what the provider gives, so that a step comes
to the same whether a resource was fetched before it or not.
-/

namespace Stencil

namespace Provider

variable (p : Provider)

def bytes (handle : String) : Except RunError (List UInt8) := do
  let bytes ← (p.fetch handle).mapError (.resource handle)
  if p.logsReads then
    let _ ← (p.identify handle).mapError (.resource handle)
  .ok bytes

def text (handle : String) : Except RunError String := do
  let bytes ← p.bytes handle
  (Text.decode bytes).mapError fun e ↦ .resource handle (.notText e)

def pixels (handle : String) : Except RunError PixelSize := do
  let bytes ← p.bytes handle
  match pixelSize? bytes with
  | none => .error (.resource handle .unknownImageFormat)
  | some size => .ok size

/-- Identities tell resources apart. -/
def Faithful : Prop := ∀ handle handle' id, p.identify handle = .ok id → p.identify handle' = .ok id →
  p.fetch handle = p.fetch handle'

variable {p} {handle handle' id : String}

theorem identify_ofEntries {es : Entries (List UInt8)} {bytes : List UInt8} (h : es.get? handle = some bytes) :
    (ofEntries es).identify handle = .ok ("memory:" ++ handle) := by
  simp [ofEntries, Entries.has, h]

theorem text_ofEntries {es : Entries (List UInt8)} {bytes : List UInt8} {text : String} (h : es.get? handle = some bytes)
    (hdecode : Text.decode bytes = .ok text) : (ofEntries es).text handle = .ok text := by
  have hbytes : (ofEntries es).bytes handle = .ok bytes := by
    simp only [ofEntries, Provider.bytes, h]
    rfl
  exact except_bind_eq_ok.2 ⟨bytes, hbytes, by rw [hdecode]; rfl⟩

theorem faithful_ofEntries (es : Entries (List UInt8)) : (ofEntries es).Faithful := by
  intro handle handle' id h h'
  have hid : ∀ {handle : String}, (ofEntries es).identify handle = .ok id → "memory:" ++ handle = id := fun {handle} h ↦ by
    simp only [ofEntries] at h
    split at h
    · exact Except.ok.inj h
    · cases h
  have hsame : handle = handle' := String.ext (by simpa [String.toList_append] using congrArg String.toList ((hid h).trans (hid h').symm))
  rw [hsame]

theorem Faithful.bytes (hp : p.Faithful) (h : p.identify handle = .ok id) (h' : p.identify handle' = .ok id)
    {bs : List UInt8} (hbs : p.bytes handle = .ok bs) : p.bytes handle' = .ok bs := by
  have hfetch := hp handle handle' id h h'
  simp only [Provider.bytes, h, h', ← hfetch] at hbs ⊢
  cases hf : p.fetch handle with
  | error e =>
    rw [hf] at hbs
    cases hbs
  | ok bs' =>
    rw [hf] at hbs
    cases hl : p.logsReads <;> rw [hl] at hbs <;> exact hbs

theorem Faithful.text (hp : p.Faithful) (h : p.identify handle = .ok id) (h' : p.identify handle' = .ok id)
    {s : String} (hs : p.text handle = .ok s) : p.text handle' = .ok s := by
  obtain ⟨bs, hbs, hdecode⟩ := except_bind_eq_ok.1 hs
  refine except_bind_eq_ok.2 ⟨bs, hp.bytes h h' hbs, ?_⟩
  cases hd : Text.decode bs with
  | error e => simp [hd, Except.mapError] at hdecode
  | ok s' => simpa [hd, Except.mapError] using hdecode

theorem Faithful.pixels (hp : p.Faithful) (h : p.identify handle = .ok id) (h' : p.identify handle' = .ok id)
    {size : PixelSize} (hsize : p.pixels handle = .ok size) : p.pixels handle' = .ok size := by
  obtain ⟨bs, hbs, hpixels⟩ := except_bind_eq_ok.1 hsize
  refine except_bind_eq_ok.2 ⟨bs, hp.bytes h h' hbs, ?_⟩
  cases hd : pixelSize? bs with
  | none => simp [hd] at hpixels
  | some size' => simpa [hd] using hpixels

end Provider

namespace Cache

variable {α : Type} {c : Cache α} {key : String} {value : α}

theorem get?_put_self (c : Cache α) (key : String) (value : α) : (c.put key value).get? key = some value := by
  rw [put]
  cases c.armed <;> exact Entries.get?_put_self key value c.entries

theorem get?_put_of_ne {other : String} (h : key ≠ other) (c : Cache α) (value : α) :
    (c.put key value).get? other = c.get? other := by
  rw [put]
  cases c.armed <;> exact Entries.get?_put_of_ne h value c.entries

theorem get?_of_flush (h : c.flush.get? key = some value) : c.get? key = some value := by
  have hfire : ∀ (c : Cache α) (window : ℕ), (c.fire window).get? key = some value → c.get? key = some value := fun c window h ↦ by
    simp only [fire] at h
    split at h
    · cases h
    · exact h
  have hfold : ∀ (windows : List ℕ) (c : Cache α), (windows.foldl fire c).get? key = some value → c.get? key = some value := fun windows ↦ by
    induction windows with
    | nil => exact fun c h ↦ h
    | cons window windows ih => exact fun c h ↦ hfire c window (ih _ h)
  exact hfold c.timers c h

end Cache

/-! ### Coherent services -/

/-- Services that keep what a provider gives. -/
structure Services.Coherent (p : Provider) (S : Services) : Prop where
  faithful : p.Faithful
  sizes : ∀ handle id size, p.identify handle = .ok id → S.sizes.get? id = some size → p.pixels handle = .ok size
  fragments : ∀ handle id text, p.identify handle = .ok id → S.fragments.get? id = some text → p.text handle = .ok text

namespace Services.Coherent

variable {p : Provider} {S : Services} {handle id : String}

theorem ofTtl (hp : p.Faithful) (ttl : ℕ) : (Services.ofTtl ttl).Coherent p where
  faithful := hp
  sizes _ _ _ _ h := by cases h
  fragments _ _ _ _ h := by cases h

theorem flushSizes (h : S.Coherent p) : S.flushSizes.Coherent p :=
  ⟨h.faithful, fun handle id size hid hsize ↦ h.sizes handle id size hid (Cache.get?_of_flush hsize), h.fragments⟩

theorem flushFragments (h : S.Coherent p) : S.flushFragments.Coherent p :=
  ⟨h.faithful, h.sizes, fun handle id text hid htext ↦ h.fragments handle id text hid (Cache.get?_of_flush htext)⟩

theorem putSize (h : S.Coherent p) (hid : p.identify handle = .ok id) {size : PixelSize} (hsize : p.pixels handle = .ok size) :
    Coherent p { S with sizes := S.sizes.put id size } := by
  refine ⟨h.faithful, fun handle' id' size' hid' hsize' ↦ ?_, h.fragments⟩
  by_cases hsame : id = id'
  · subst hsame
    rw [Cache.get?_put_self] at hsize'
    obtain rfl := Option.some.inj hsize'
    exact h.faithful.pixels hid hid' hsize
  · rw [Cache.get?_put_of_ne hsame] at hsize'
    exact h.sizes handle' id' size' hid' hsize'

theorem putText (h : S.Coherent p) (hid : p.identify handle = .ok id) {text : String} (htext : p.text handle = .ok text) :
    Coherent p { S with fragments := S.fragments.put id text } := by
  refine ⟨h.faithful, h.sizes, fun handle' id' text' hid' htext' ↦ ?_⟩
  by_cases hsame : id = id'
  · subst hsame
    rw [Cache.get?_put_self] at htext'
    obtain rfl := Option.some.inj htext'
    exact h.faithful.text hid hid' htext
  · rw [Cache.get?_put_of_ne hsame] at htext'
    exact h.fragments handle' id' text' hid' htext'

end Services.Coherent

/-- Desks that differ in no more than what is kept of resources. -/
structure Desk.Alike (p : Provider) (k k' : Desk) : Prop where
  model : k.model = k'.model
  aliases : k.aliases = k'.aliases
  left : k.services.Coherent p
  right : k'.services.Coherent p

def Desk.state (k : Desk) : RunState := ⟨.ofText 0 "", k.model, k.aliases, k.services, .empty, 0, 0, []⟩

namespace Desk.Alike

variable {p : Provider} {k k' k'' : Desk}

theorem refl (h : k.services.Coherent p) : k.Alike p k := ⟨rfl, rfl, h, h⟩

theorem symm (h : k.Alike p k') : k'.Alike p k := ⟨h.model.symm, h.aliases.symm, h.right, h.left⟩

theorem trans (h : k.Alike p k') (h' : k'.Alike p k'') : k.Alike p k'' :=
  ⟨h.model.trans h'.model, h.aliases.trans h'.aliases, h.left, h'.right⟩

end Desk.Alike

/-- A state that differs in no more than what is kept of resources and the log. -/
structure RunState.Served (p : Provider) (r r' : RunState) : Prop where
  document : r'.document = r.document
  model : r'.model = r.model
  aliases : r'.aliases = r.aliases
  report : r'.report = r.report
  nextSerial : r'.nextSerial = r.nextSerial
  services : r'.services.Coherent p

namespace RunState.Served

variable {p : Provider} {r r' r'' : RunState}

theorem refl (h : r.services.Coherent p) : r.Served p r := ⟨rfl, rfl, rfl, rfl, rfl, h⟩

theorem trans (h : r.Served p r') (h' : r'.Served p r'') : r.Served p r'' :=
  ⟨h'.document.trans h.document, h'.model.trans h.model, h'.aliases.trans h.aliases, h'.report.trans h.report,
    h'.nextSerial.trans h.nextSerial, h'.services⟩

theorem alike (h : r.Served p r') (hr : r.services.Coherent p) : r.desk.Alike p r'.desk :=
  ⟨h.model.symm, h.aliases.symm, hr, h.services⟩

end RunState.Served

namespace Run

variable {α β : Type} {p : Provider} {x : Run α} {a : Except RunError α}

/-! ### Steps that read resources -/

/-- A step that gives what the provider settles, whatever is kept of resources, and does nothing else. -/
def Serves (p : Provider) (x : Run α) (a : Except RunError α) : Prop :=
  ∀ r : RunState, r.services.Coherent p → (x.on r).1 = a ∧ r.Served p (x.on r).2

theorem serves_pure (a : α) : Serves p (pure a) (.ok a) := fun _ h ↦ ⟨rfl, .refl h⟩

theorem serves_ofExcept {ε : Type} (wrap : ε → RunError) (x : Except ε α) : Serves p (ofExcept wrap x) (x.mapError wrap) := by
  cases x with
  | ok a => exact serves_pure a
  | error e => exact fun _ h ↦ ⟨rfl, .refl h⟩

theorem serves_log (e : Event) : Serves p (log e) (.ok ()) := fun _ h ↦ ⟨rfl, rfl, rfl, rfl, rfl, rfl, h⟩

theorem serves_services {f : Services → Services} (hf : ∀ S, S.Coherent p → (f S).Coherent p) :
    Serves p (modify fun r ↦ { r with services := f r.services }) (.ok ()) := fun _ h ↦ ⟨rfl, rfl, rfl, rfl, rfl, rfl, hf _ h⟩

theorem serves_bind {k : α → Run β} {g : α → Except RunError β} (hx : Serves p x a) (hk : ∀ v, a = .ok v → Serves p (k v) (g v)) :
    Serves p (x >>= k) (a >>= g) := by
  intro r hr
  obtain ⟨hresult, hserved⟩ := hx r hr
  rcases hon : x.on r with ⟨e | v, r₁⟩ <;> rw [hon] at hresult hserved <;> subst hresult
  · rw [on_bind_error hon]
    exact ⟨rfl, hserved⟩
  · rw [on_bind_ok hon]
    obtain ⟨hresult', hserved'⟩ := hk v rfl r₁ hserved.services
    exact ⟨hresult', hserved.trans hserved'⟩

theorem serves_seq {k : α → Run β} {v : α} {b : Except RunError β} (hx : Serves p x (.ok v)) (hk : Serves p (k v) b) :
    Serves p (x >>= k) b := by
  have hbind := serves_bind (k := k) (g := fun _ ↦ b) hx fun w hw ↦ by
    obtain rfl := Except.ok.inj hw
    exact hk
  exact hbind

theorem serves_letFlush {flush : Services → Services} (hflush : ∀ S, S.Coherent p → (flush S).Coherent p) :
    Serves p (letFlush flush) (.ok ()) := by
  have htake : ∀ r : RunState, r.services.Coherent p → ∃ b, (takeFlush.on r).1 = .ok b ∧ r.Served p (takeFlush.on r).2 := by
    rintro ⟨document, model, aliases, ⟨sizes, fragments, fetched, flushes⟩, report, searches, nextSerial, log⟩ h
    cases flushes with
    | nil => exact ⟨false, rfl, .refl h⟩
    | cons b bs => exact ⟨b, rfl, rfl, rfl, rfl, rfl, rfl, ⟨h.faithful, h.sizes, h.fragments⟩⟩
  intro r hr
  obtain ⟨b, hresult, hserved⟩ := htake r hr
  rcases hon : takeFlush.on r with ⟨result, r₁⟩
  rw [hon] at hresult hserved
  obtain rfl : result = .ok b := hresult
  rw [letFlush, on_bind_ok hon]
  cases b with
  | false => exact ⟨rfl, hserved⟩
  | true => exact ⟨rfl, hserved.trans ⟨rfl, rfl, rfl, rfl, rfl, hflush _ hserved.services⟩⟩

theorem serves_fetch (handle : String) : Serves p (fetch p handle) (p.bytes handle) := by
  refine serves_seq (serves_services (f := fun S ↦ { S with fetched := handle :: S.fetched })
    fun S h ↦ ⟨h.faithful, h.sizes, h.fragments⟩) (serves_bind (serves_ofExcept _ _) fun bytes _ ↦ ?_)
  cases p.logsReads with
  | false => exact serves_pure bytes
  | true => exact serves_bind (serves_ofExcept _ _) fun id _ ↦ serves_seq (serves_log _) (serves_pure bytes)

theorem serves_fetchText (handle : String) : Serves p (fetchText p handle) (p.text handle) :=
  serves_bind (serves_fetch handle) fun _ _ ↦ serves_ofExcept _ _

theorem serves_read {g : Services → Run α} (hg : ∀ S, S.Coherent p → Serves p (g S) a) :
    Serves p (do let r ← get; g r.services : Run α) a := fun r hr ↦ hg _ hr r hr

theorem serves_fragmentText (handle : String) :
    Serves p (fragmentText p handle) ((p.identify handle).mapError (.resource handle) >>= fun _ ↦ p.text handle) := by
  refine serves_bind (serves_ofExcept _ _) fun id hid ↦ ?_
  have hid : p.identify handle = .ok id := by
    cases h : p.identify handle with
    | error e => simp [h, Except.mapError] at hid
    | ok id' => simpa [h, Except.mapError] using hid
  refine serves_seq (serves_letFlush fun _ h ↦ h.flushFragments) (serves_read (g := keptText p handle id) fun S hS ↦ ?_)
  rw [keptText]
  cases hkept : S.fragments.get? id with
  | some text =>
    rw [hS.fragments handle id text hid hkept]
    exact serves_pure text
  | none =>
    have hput : ∀ text, p.text handle = .ok text → Serves p (do
        modify fun s ↦ { s with services := { s.services with fragments := s.services.fragments.put id text } }
        return text : Run String) (.ok text) := fun text htext ↦
      serves_seq (serves_services (f := fun S ↦ { S with fragments := S.fragments.put id text })
        fun S hS ↦ hS.putText hid htext) (serves_pure text)
    have hfetch := serves_bind (g := .ok) (serves_fetchText handle) hput
    rwa [show (p.text handle >>= Except.ok) = p.text handle by cases p.text handle <;> rfl] at hfetch

theorem serves_imageSize (handle : String) :
    Serves p (imageSize p handle) ((p.identify handle).mapError (.resource handle) >>= fun _ ↦ p.pixels handle) := by
  refine serves_bind (serves_ofExcept _ _) fun id hid ↦ ?_
  have hid : p.identify handle = .ok id := by
    cases h : p.identify handle with
    | error e => simp [h, Except.mapError] at hid
    | ok id' => simpa [h, Except.mapError] using hid
  refine serves_seq (serves_letFlush fun _ h ↦ h.flushSizes) (serves_read (g := keptSize p handle id) fun S hS ↦ ?_)
  rw [keptSize]
  cases hkept : S.sizes.get? id with
  | some size =>
    rw [hS.sizes handle id size hid hkept]
    exact serves_pure size
  | none =>
    rw [Provider.pixels]
    refine serves_bind (serves_fetch handle) fun bytes hbytes ↦ ?_
    cases hsize : pixelSize? bytes with
    | none => exact fun _ h ↦ ⟨rfl, .refl h⟩
    | some size =>
      have hpixels : p.pixels handle = .ok size := except_bind_eq_ok.2 ⟨bytes, hbytes, by rw [hsize]⟩
      exact serves_seq (serves_services (f := fun S ↦ { S with sizes := S.sizes.put id size })
        fun S hS ↦ hS.putSize hid hpixels) (serves_pure size)

/-! ### Fair steps -/

/-- A step that comes to the same at desks that differ in no more than what is kept of resources. It
defines no alias. -/
def Fair (p : Provider) (x : Run α) : Prop := ∀ r r' : RunState, r.desk.Alike p r'.desk →
  (x.on r).1 = (x.on r').1 ∧ (x.on r).2.desk.Alike p (x.on r').2.desk ∧ (x.on r).2.aliases = r.aliases

theorem Serves.fair (h : Serves p x a) : Fair p x := by
  intro r r' halike
  obtain ⟨hresult, hserved⟩ := h r halike.left
  obtain ⟨hresult', hserved'⟩ := h r' halike.right
  exact ⟨hresult.trans hresult'.symm, (hserved.alike halike.left).symm.trans (halike.trans (hserved'.alike halike.right)),
    hserved.aliases⟩

theorem fair_pure (a : α) : Fair p (pure a) := fun _ _ h ↦ ⟨rfl, h, rfl⟩

theorem fair_throw (e : RunError) : Fair p (throw e : Run α) := fun _ _ h ↦ ⟨rfl, h, rfl⟩

theorem fair_ofExcept {ε : Type} (wrap : ε → RunError) (x : Except ε α) : Fair p (ofExcept wrap x) := by
  cases x with
  | ok a => exact fair_pure a
  | error e => exact fair_throw (wrap e)

theorem fair_log (e : Event) : Fair p (log e) := fun _ _ h ↦ ⟨rfl, h, rfl⟩

theorem fair_bind {k : α → Run β} (hx : Fair p x) (hk : ∀ a, Fair p (k a)) : Fair p (x >>= k) := by
  intro r r' halike
  obtain ⟨hresult, hdesk, haliases⟩ := hx r r' halike
  rcases hon : x.on r with ⟨e | a, r₁⟩ <;> rcases hon' : x.on r' with ⟨e' | a', r₁'⟩ <;>
    rw [hon, hon'] at hresult hdesk <;> rw [hon] at haliases <;> cases hresult
  · rw [on_bind_error hon, on_bind_error hon']
    exact ⟨rfl, hdesk, haliases⟩
  · rw [on_bind_ok hon, on_bind_ok hon']
    obtain ⟨hresult', hdesk', haliases'⟩ := hk a r₁ r₁' hdesk
    exact ⟨hresult', hdesk', haliases'.trans haliases⟩

theorem fair_model : Fair p model := fun _ _ h ↦ ⟨congrArg Except.ok h.model, h, rfl⟩

theorem fair_setModel (m : Model) : Fair p (setModel m) := fun _ _ h ↦ ⟨rfl, ⟨rfl, h.aliases, h.left, h.right⟩, rfl⟩

theorem fair_push (name : String) (value : Datum) : Fair p (push name value) :=
  fair_bind fair_model fun _ ↦ fair_bind (fair_ofExcept _ _) fair_setModel

theorem fair_enter (path : Path) : Fair p (enter path) :=
  fair_bind fair_model fun _ ↦ fair_bind (fair_ofExcept _ _) fun _ ↦ fair_bind (fair_log _) fun _ ↦ fair_setModel _

theorem fair_filterMapM {γ : Type} {f : γ → Run (Option α)} (hf : ∀ c, Fair p (f c)) (cs : List γ) :
    Fair p (cs.filterMapM f) := by
  induction cs with
  | nil => exact fair_pure []
  | cons c cs ih =>
    rw [List.filterMapM_cons]
    refine fair_bind (hf c) fun a? ↦ ?_
    cases a? with
    | none => exact ih
    | some a => exact fair_bind ih fun as ↦ fair_pure (a :: as)

/-! ### What steps tell -/

/-- What a step that works with the desk alone gives there, and the desk that it leaves. -/
def told (x : Run α) (k : Desk) : Except RunError α × Desk := ((x.on k.state).1, (x.on k.state).2.desk)

theorem Plain.told (h : x.Plain) (r : RunState) :
    ∃ r', x.on r = ((x.told r.desk).1, r') ∧ r'.desk = (x.told r.desk).2 ∧ r.Idles r' := by
  obtain ⟨f, hf⟩ := h
  obtain ⟨r₁, hon₁, hdesk₁, _⟩ := hf r.desk.state
  obtain ⟨r', hon, hdesk, hidles⟩ := hf r
  have htold : x.told r.desk = f r.desk := by rw [Run.told, hon₁, hdesk₁]; rfl
  rw [htold]
  exact ⟨r', hon, hdesk, hidles⟩

end Run

/-- What is told of the desk is the same at desks that differ in no more than what is kept of resources, and
no alias is defined. -/
def Desk.Fairly {α : Type} (p : Provider) (f : Desk → Except RunError α × Desk) : Prop :=
  ∀ k k', k.Alike p k' → (f k).1 = (f k').1 ∧ (f k).2.Alike p (f k').2 ∧ (f k).2.aliases = k.aliases

theorem Run.Fair.told {α : Type} {p : Provider} {x : Run α} (h : x.Fair p) : Desk.Fairly p x.told :=
  fun k k' halike ↦ h k.state k'.state halike

theorem Desk.fairly_andThen {α β : Type} {p : Provider} {f : Desk → Except RunError α × Desk}
    {g : α → Desk → Except RunError β × Desk} (hf : Desk.Fairly p f) (hg : ∀ a, Desk.Fairly p (g a)) :
    Desk.Fairly p (Run.andThen f g) := by
  intro k k' halike
  obtain ⟨hresult, hdesk, haliases⟩ := hf k k' halike
  rw [Run.andThen, Run.andThen]
  rcases hk : f k with ⟨e | a, k₁⟩ <;> rcases hk' : f k' with ⟨e' | a', k₁'⟩ <;>
    rw [hk, hk'] at hresult hdesk <;> rw [hk] at haliases <;> cases hresult
  · exact ⟨rfl, hdesk, haliases⟩
  · obtain ⟨hresult', hdesk', haliases'⟩ := hg a k₁ k₁' hdesk
    exact ⟨hresult', hdesk', haliases'.trans haliases⟩

namespace Selection

variable {p : Provider} (s : Selection) (key : String)

theorem fair_requireStr : (s.requireStr key).Fair p := Run.fair_ofExcept _ _

theorem fair_source? : (s.source? key).Fair p := Run.fair_ofExcept _ _

theorem fair_value? : (s.value? key).Fair p :=
  Run.fair_bind (s.fair_source? key) fun _ ↦ Run.fair_bind Run.fair_model fun _ ↦ Run.fair_pure _

end Selection

end Stencil
