import Stencil.Proofs.Command.Answer
import Stencil.Proofs.Inclusion.Rendering
import Stencil.Proofs.Numbering.Builtin
/-!
Calls of one renderer, served one after another. What a call leaves behind for the next are resources that
were read and the number of the next document; a call on a renderer that served others before comes to
the same as on one that is new, but for the numbers of the documents.
-/

namespace Stencil

variable {k : ℕ} {p : Provider}

/-! ### Scans side by side -/

namespace Scanner

open Run

variable {s : Scanner}

theorem shifts_changeReport {u u' : Report → Report} (hu : ∀ r, u' (r.shift k) = (u r).shift k) :
    Shifts p k id (changeReport u) (changeReport u') :=
  shifts_modify fun r _ h ↦ ⟨h.document, h.model, h.aliases, by dsimp only; rw [h.report, hu], h.nextSerial, h.left, h.right⟩

theorem shifts_countExecuted : Shifts p k id countExecuted countExecuted := shifts_changeReport fun _ ↦ rfl

theorem shifts_countIgnored : Shifts p k id countIgnored countIgnored := shifts_changeReport fun _ ↦ rfl

theorem shifts_record (q : Placeholder) (command? : Option String) (e : RunError) :
    (s.record q command? e).Shifts p k id (s.record (q.shift k) command? (e.shift k)) := by
  have hnote : (do
      log (.recorded ⟨e, command?, q.marker⟩)
      changeReport fun r ↦ { r with findings := r.findings ++ [⟨e, command?, q.marker⟩] } : Run Unit).Shifts p k id (do
      log (.recorded ⟨e.shift k, command?, q.marker⟩)
      changeReport fun r ↦ { r with findings := r.findings ++ [⟨e.shift k, command?, q.marker⟩] }) :=
    shifts_bind (shifts_log _ _) fun _ ↦ shifts_changeReport fun r ↦ by simp [Report.shift, Finding.shift]
  rw [record, record]
  cases s.settings.failFast with
  | true => exact shifts_bind (f := id) (shifts_throw e) fun _ ↦ hnote
  | false => exact hnote

/-- A scanner of a text whose handlers do the same in two runs side by side. -/
structure Matches (p : Provider) (k : ℕ) (s : Scanner) : Prop where
  provider : s.provider = p
  toolkit : ∃ t, s.toolkit = .ofDelimiters t
  handlers : ∀ name h, s.registry.get? name = some h → h.Shifts p k

variable (hs : s.Matches p k)

include hs

theorem Matches.textual (q : Placeholder) (c : Command) : (s.selection q c).Textual p where
  provider := hs.provider
  toolkit := by
    obtain ⟨t, ht⟩ := hs.toolkit
    exact ⟨t, congrArg some ht⟩

theorem shifts_finish (q : Placeholder) (c : Command) :
    (s.finish q c).Shifts p k (Option.map (.shift k)) (s.finish (q.shift k) c) := by
  refine shifts_bind (shifts_attempt (Selection.shifts_deletePlaceholder (hs.textual q c))) fun result ↦ ?_
  rcases result with e | _ | next
  · exact shifts_bind (shifts_record q _ e) fun _ ↦ shifts_pure none
  · exact shifts_pure none
  · exact shifts_bind shifts_countExecuted fun _ ↦ shifts_pure (some next)

theorem shifts_carryOut (q : Placeholder) (cs : Commands) :
    (s.carryOut q cs).Shifts p k (Option.map (.shift k)) (s.carryOut (q.shift k) cs) := by
  induction cs with
  | nil => exact shifts_pure none
  | cons c rest ih =>
    rw [carryOut, carryOut]
    cases hget : s.registry.get? c.name with
    | none => exact shifts_throw _
    | some handler =>
      refine shifts_bind (shifts_log _ _) fun _ ↦
        shifts_bind (shifts_attempt (hs.handlers _ _ hget _ (hs.textual q c))) fun result ↦ ?_
      rcases result with e | _ | next | _
      · exact shifts_bind (shifts_record q _ e) fun _ ↦ shifts_pure none
      · exact shifts_bind shifts_countIgnored fun _ ↦ shifts_pure none
      · refine shifts_bind shifts_countExecuted fun _ ↦ ?_
        dsimp only
        split
        · exact shifts_bind (shifts_record q _ _) fun _ ↦ shifts_pure (some next)
        · exact shifts_pure (some next)
      · cases hrest : rest.isEmpty with
        | true => exact shifts_finish hs q c
        | false => exact ih

theorem shifts_dispatch (q : Placeholder) (cs : Commands) :
    (s.dispatch q cs).Shifts p k (Option.map (.shift k)) (s.dispatch (q.shift k) cs) := by
  refine shifts_get fun r r' hr ↦ ?_
  rw [hr.aliases]
  dsimp only
  split
  · exact shifts_carryOut hs q _
  · split
    · exact shifts_bind (shifts_log _ _) fun _ ↦ shifts_bind shifts_countIgnored fun _ ↦ shifts_pure none
    · exact shifts_throw _

omit hs in
theorem shifts_resume (q : Placeholder) (next? : Option Continuation) :
    (resume q next?).Shifts p k (Option.map (.shift k)) (resume (q.shift k) (next?.map (.shift k))) := by
  refine shifts_bind shifts_document fun d ↦ ?_
  have hnext : (next?.map (.shift k)).getD .proceed = (next?.getD .proceed).shift k := by cases next? <;> rfl
  dsimp only
  rw [hnext, resumption_shift, Option.isNone_map]
  split
  · exact shifts_bind (shifts_log _ _) fun _ ↦ shifts_pure _
  · exact shifts_pure _

theorem shifts_visit (node : NodeId) : (s.visit node).Shifts p k (Option.map (.shift k)) (s.visit (node.shift k)) := by
  refine shifts_bind shifts_document fun d ↦ ?_
  dsimp only
  rw [Document.payload?_shift, Document.text?_shift, Document.nextAfter?_shift]
  let q : Placeholder := ⟨node, (d.text? node).getD "", d.nextAfter? node⟩
  cases d.payload? s.toolkit.delimiters node with
  | none => exact shifts_pure q.successor?
  | some payload =>
    refine shifts_bind (shifts_log _ _) fun _ ↦ ?_
    cases Payload.read payload with
    | ok commands => exact shifts_bind (shifts_dispatch hs q commands) fun next? ↦ shifts_resume q next?
    | error e =>
      exact shifts_bind shifts_countIgnored fun _ ↦ shifts_bind (shifts_record q none (.payload e)) fun _ ↦ shifts_pure q.successor?

theorem shifts_scanFrom (left : ℕ) (node : NodeId) : (s.scanFrom left node).Shifts p k id (s.scanFrom left (node.shift k)) := by
  obtain ⟨t, ht⟩ := hs.toolkit
  induction left generalizing node with
  | zero =>
    rw [scanFrom, scanFrom, ht]
    refine shifts_bind (shifts_search t node) fun found? ↦ ?_
    cases found? with
    | none => exact shifts_pure ()
    | some found => exact shifts_throw _
  | succ n ih =>
    rw [scanFrom, scanFrom, ht]
    refine shifts_bind (shifts_search t node) fun found? ↦ ?_
    cases found? with
    | none => exact shifts_pure ()
    | some found =>
      refine shifts_bind (shifts_visit hs found) fun next? ↦ ?_
      cases next? with
      | none => exact shifts_pure ()
      | some next => exact ih next

theorem shifts_scan : s.scan.Shifts p k (.shift k) s.scan := by
  refine shifts_bind (shifts_log _ _) fun _ ↦ shifts_bind shifts_document fun d ↦
    shifts_bind (shifts_scanFrom hs _ d.root) fun _ ↦ shifts_get fun r r' hr ↦ ?_
  rw [hr.report]
  exact shifts_bind (shifts_log _ _) fun _ ↦ shifts_pure r.report

end Scanner

/-! ### Calls -/

/-- A workshop whose caches are flushed before some of their next uses. -/
def Workshop.flushing (w : Workshop) (flushes : List Bool) : Workshop := { w with services := { w.services with flushes } }

namespace Renderer

/-- A call of a renderer: a template and a model, the time that the clock shows, and, for each use of a
cache during the call, whether the timers of that cache have fired before it. -/
structure Call where
  template : String
  model : Model
  now : Calendar.Moment
  flushes : List Bool

variable (R : Renderer)

def serve (w : Workshop) (c : Call) : RunResult :=
  { R with now := c.now }.renderText (w.flushing c.flushes) c.template c.model

/-- What is left when a new renderer has served calls, one after another. -/
def after (calls : List Call) : Workshop := calls.foldl (fun w c ↦ (R.serve w c).workshop) R.workshop

variable {R} {w w' : Workshop}

theorem serve_shifts (hregistry : R.registry = .builtin) (hw : w.services.Coherent R.provider) (hw' : w'.services.Coherent R.provider)
    (hserial : w'.nextSerial = w.nextSerial + k) (c : Call) (flushes : List Bool) :
    (R.serve w' c).result = exceptMap (.shift k) (.shift k) (R.serve w { c with flushes }).result ∧
      (R.serve w { c with flushes }).state.Shifted R.provider k (R.serve w' c).state := by
  let s : Scanner := { R with now := c.now }.scanner (.ofDelimiters R.settings.delimiters)
  have hs : s.Matches R.provider k := by
    refine ⟨rfl, ⟨_, rfl⟩, fun name h hget ↦ ?_⟩
    have hbuiltin : Registry.builtin.get? name = some h := by rwa [← hregistry]
    exact Handler.shifts_of_mem (Registry.mem_of_get? hbuiltin).1
  have hflush : ∀ {S : Services} (flushes : List Bool), S.Coherent R.provider → Services.Coherent R.provider { S with flushes } :=
    fun _ h ↦ ⟨h.faithful, h.sizes, h.fragments⟩
  refine s.shifts_scan hs _ _ ⟨?_, rfl, rfl, rfl, ?_, hflush flushes hw, hflush c.flushes hw'⟩
  · exact (congrArg (Document.ofText · c.template) hserial).trans (Document.ofText_shift _ _)
  · exact (congrArg (· + 1) hserial).trans (Nat.add_right_comm _ _ _)

/-- Whatever calls were served, what is kept of resources is what the provider gives. -/
theorem coherent_after (hregistry : R.registry = .builtin) (hprovider : R.provider.Faithful) (calls : List Call) :
    (R.after calls).services.Coherent R.provider := by
  have hfold : ∀ (calls : List Call) (w : Workshop), w.services.Coherent R.provider →
      (calls.foldl (fun w c ↦ (R.serve w c).workshop) w).services.Coherent R.provider := fun calls ↦ by
    induction calls with
    | nil => exact fun _ h ↦ h
    | cons c calls ih => exact fun w hw ↦ ih _ (serve_shifts (k := 0) hregistry hw hw rfl c c.flushes).2.right
  exact hfold calls R.workshop (.ofTtl hprovider _)

/-- Calls of one renderer do not influence each other. Whatever calls were served before, and whenever the
timers of the caches fire, a call gives the text and leaves the model that it does on a renderer that is
new; what it reports, or the error that it ends with, is the same but for the numbers of documents. -/
theorem serve_unaffected (hregistry : R.registry = .builtin) {es : Entries (List UInt8)} (hprovider : R.provider = .ofEntries es)
    (calls : List Call) (c : Call) (flushes : List Bool) :
    (R.serve (R.after calls) c).text = (R.serve R.workshop { c with flushes }).text ∧
      (R.serve (R.after calls) c).state.model = (R.serve R.workshop { c with flushes }).state.model ∧
      (R.serve (R.after calls) c).result = exceptMap (.shift (R.after calls).nextSerial) (.shift (R.after calls).nextSerial)
        (R.serve R.workshop { c with flushes }).result := by
  have hfaithful : R.provider.Faithful := hprovider ▸ Provider.faithful_ofEntries es
  obtain ⟨hresult, hshifted⟩ := serve_shifts (w := R.workshop) hregistry (.ofTtl hfaithful _) (coherent_after hregistry hfaithful calls)
    (Nat.zero_add _).symm c flushes
  refine ⟨?_, hshifted.model, hresult⟩
  rw [RunResult.text, hshifted.document, Document.toText_shift]
  rfl

def saying : List Call :=
  [⟨"$\x7bImport resource:'part'\x7d", .ofData .null, ⟨⟨0, 1⟩, .midnight⟩, []⟩,
    ⟨"$\x7bAlias key:'Say', replaceKey:'String'\x7d$\x7bImport resource:'other'\x7d", .ofData .null, ⟨⟨0, 1⟩, .midnight⟩, [true]⟩]

def said : Call := ⟨"$\x7bImport resource:'part'\x7d\n$\x7bSay value:'x'\x7d", .ofData .null, ⟨⟨0, 1⟩, .midnight⟩, [true]⟩

theorem serve_unaffected_said :
    ((holding "part" "hello").serve ((holding "part" "hello").after saying) said).text = "hello\n$\x7bSay value:'x'\x7d" ∧
      ((holding "part" "hello").serve ((holding "part" "hello").after saying) said).result = .ok ⟨1, 1, []⟩ := by
  have hregistry : (holding "part" "hello").registry = .builtin := rfl
  have hprovider : (holding "part" "hello").provider = .ofEntries [("part", "hello".toUTF8.data.toList)] := rfl
  have hnew : ((holding "part" "hello").serve (holding "part" "hello").workshop { said with flushes := [] }).text =
      "hello\n$\x7bSay value:'x'\x7d" ∧
      ((holding "part" "hello").serve (holding "part" "hello").workshop { said with flushes := [] }).result = .ok ⟨1, 1, []⟩ := by
    decide +kernel
  obtain ⟨htext, -, hresult⟩ := serve_unaffected hregistry hprovider saying said []
  rw [htext, hresult, hnew.1, hnew.2]
  exact ⟨rfl, rfl⟩

end Renderer

end Stencil
