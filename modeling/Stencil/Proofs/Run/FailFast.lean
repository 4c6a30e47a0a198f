import Stencil.Proofs.Command.Tacit
import Stencil.Proofs.Run.Course
/-!
Runs that end with the first problem, and runs that note their problems and go on. Both do the same up
to the first thing that goes wrong.
-/

namespace Stencil

namespace Run

variable {α β : Type} {x y : Run α} {k l : α → Run β}

/-- A step that notes what goes wrong leads one that fails instead: while the first notes nothing, the
second does the same, and the second fails with the first thing that the first notes. -/
def Leads (x y : Run α) : Prop := ∀ r : RunState,
  (y.on r = x.on r ∧ (x.on r).2.report.findings = r.report.findings) ∨
    ∃ f fs, (x.on r).2.report.findings = r.report.findings ++ f :: fs ∧ (y.on r).1 = .error f.error

theorem Tacit.leads (hx : Tacit x) : Leads x x := fun r ↦ .inl ⟨rfl, congrArg Report.findings (hx r)⟩

theorem leads_pure (a : α) : Leads (pure a : Run α) (pure a) := (tacit_pure a).leads

theorem leads_count {f : Report → Report} (hf : ∀ r, (f r).findings = r.findings) : Leads (changeReport f) (changeReport f) :=
  fun r ↦ .inl ⟨rfl, hf r.report⟩

/-- What comes later only adds to what was noted, so that the first problem stays the first. -/
theorem leads_bind (hx : Leads x y) (hk : ∀ a, Leads (k a) (l a)) : Leads (x >>= k) (y >>= l) := by
  intro r
  rcases hx r with ⟨hsame, hnone⟩ | ⟨f, fs, hnoted, hfails⟩
  · rcases hon : x.on r with ⟨e | a, r₁⟩
    · rw [hon] at hsame hnone
      rw [on_bind_error hon, on_bind_error hsame]
      exact .inl ⟨rfl, hnone⟩
    · rw [hon] at hsame hnone
      rw [on_bind_ok hon, on_bind_ok hsame]
      rcases hk a r₁ with ⟨hlater, hquiet⟩ | ⟨f, fs, hnoted, hfails⟩
      · exact .inl ⟨hlater, hquiet.trans hnone⟩
      · rw [hnone] at hnoted
        exact .inr ⟨f, fs, hnoted, hfails⟩
  · have hstrict : (y >>= l).on r = (.error f.error, (y.on r).2) :=
      on_bind_error (Prod.ext hfails rfl)
    rw [hstrict]
    rcases hon : x.on r with ⟨e | a, r₁⟩
    · rw [hon] at hnoted
      rw [on_bind_error hon]
      exact .inr ⟨f, fs, hnoted, rfl⟩
    · rw [hon] at hnoted
      rw [on_bind_ok hon]
      rcases hk a r₁ with ⟨-, hquiet⟩ | ⟨g, gs, hlater, -⟩
      · exact .inr ⟨f, fs, hquiet.trans hnoted, rfl⟩
      · refine .inr ⟨f, fs ++ g :: gs, ?_, rfl⟩
        rw [hlater, hnoted, List.append_assoc, List.cons_append]

theorem tacit_attempt (hx : Tacit x) : Tacit (attempt x) := hx

end Run

namespace Scanner

open Run

variable (s : Scanner)

def failing (s : Scanner) (failFast : Bool) : Scanner := { s with settings := { s.settings with failFast } }

theorem leads_record (p : Placeholder) (command? : Option String) (e : RunError) :
    Leads ((s.failing false).record p command? e) ((s.failing true).record p command? e) :=
  fun _ ↦ .inr ⟨⟨e, command?, p.marker⟩, [], rfl, rfl⟩

theorem leads_finish (p : Placeholder) (c : Command) : Leads ((s.failing false).finish p c) ((s.failing true).finish p c) := by
  refine leads_bind (tacit_attempt (Selection.tacit_deletePlaceholder _)).leads fun next? ↦ ?_
  rcases next? with e | _ | next
  · exact leads_bind (s.leads_record p _ e) fun _ ↦ leads_pure none
  · exact leads_pure none
  · exact leads_bind (leads_count fun _ ↦ rfl) fun _ ↦ leads_pure _

variable (hs : ∀ name h, s.registry.get? name = some h → h.Tacit)

include hs

theorem leads_carryOut (p : Placeholder) (cs : Commands) :
    Leads ((s.failing false).carryOut p cs) ((s.failing true).carryOut p cs) := by
  induction cs with
  | nil => exact leads_pure none
  | cons c rest ih =>
    have hregistry : ∀ b, (s.failing b).registry = s.registry := fun _ ↦ rfl
    rw [carryOut, carryOut, hregistry, hregistry]
    cases hget : s.registry.get? c.name with
    | none => exact (tacit_throw _).leads
    | some handler =>
      refine leads_bind (tacit_log _).leads fun _ ↦
        leads_bind (tacit_attempt (hs c.name handler hget _)).leads fun outcome ↦ ?_
      rcases outcome with e | _ | next | _
      · exact leads_bind (s.leads_record p _ e) fun _ ↦ leads_pure none
      · exact leads_bind (leads_count fun _ ↦ rfl) fun _ ↦ leads_pure none
      · refine leads_bind (leads_count fun _ ↦ rfl) fun _ ↦ ?_
        cases rest with
        | nil => exact leads_pure _
        | cons d rest => exact leads_bind (s.leads_record p _ _) fun _ ↦ leads_pure _
      · cases rest with
        | nil => exact s.leads_finish p c
        | cons d rest => exact ih

theorem leads_dispatch (p : Placeholder) (cs : Commands) :
    Leads ((s.failing false).dispatch p cs) ((s.failing true).dispatch p cs) := by
  have hunknown : ∀ b, (s.failing b).settings.unknownCommand = s.settings.unknownCommand := fun _ ↦ rfl
  refine leads_bind tacit_get.leads fun r ↦ ?_
  dsimp only
  rw [show (s.failing true).registry = (s.failing false).registry from rfl, hunknown, hunknown]
  cases (cs.map r.aliases.expand).find? fun c ↦ !(s.failing false).registry.has c.name with
  | none => exact s.leads_carryOut hs p _
  | some c =>
    cases s.settings.unknownCommand with
    | ignore => exact leads_bind (tacit_log _).leads fun _ ↦ leads_bind (leads_count fun _ ↦ rfl) fun _ ↦ leads_pure none
    | fail => exact (tacit_throw _).leads

omit hs in
theorem tacit_resume (p : Placeholder) (next? : Option Continuation) : (resume p next?).Tacit := by
  refine tacit_bind tacit_document fun d ↦ ?_
  dsimp only
  split
  · exact tacit_bind (tacit_log _) fun _ ↦ tacit_pure _
  · exact tacit_pure _

theorem leads_visit (id : NodeId) : Leads ((s.failing false).visit id) ((s.failing true).visit id) := by
  refine leads_bind tacit_document.leads fun d ↦ ?_
  dsimp only
  rw [show (s.failing true).toolkit = (s.failing false).toolkit from rfl]
  cases d.payload? (s.failing false).toolkit.delimiters id with
  | none => exact leads_pure _
  | some payload =>
    refine leads_bind (tacit_log _).leads fun _ ↦ ?_
    cases Payload.read payload with
    | ok cs => exact leads_bind (s.leads_dispatch hs _ cs) fun next? ↦ (tacit_resume _ next?).leads
    | error e =>
      exact leads_bind (leads_count fun _ ↦ rfl) fun _ ↦ leads_bind (s.leads_record _ none _) fun _ ↦ leads_pure _

theorem leads_scanFrom (left : ℕ) (id : NodeId) : Leads ((s.failing false).scanFrom left id) ((s.failing true).scanFrom left id) := by
  induction left generalizing id with
  | zero =>
    rw [scanFrom, scanFrom]
    refine leads_bind (tacit_search s.toolkit id).leads fun found? ↦ ?_
    cases found? with
    | none => exact leads_pure ()
    | some found => exact (tacit_throw _).leads
  | succ n ih =>
    rw [scanFrom, scanFrom]
    refine leads_bind (tacit_search s.toolkit id).leads fun found? ↦ ?_
    cases found? with
    | none => exact leads_pure ()
    | some found =>
      refine leads_bind (s.leads_visit hs found) fun next? ↦ ?_
      cases next? with
      | none => exact leads_pure ()
      | some next => exact ih next

theorem leads_scan : Leads (s.failing false).scan (s.failing true).scan :=
  leads_bind (tacit_log _).leads fun _ ↦ leads_bind tacit_document.leads fun d ↦ leads_bind (s.leads_scanFrom hs _ d.root) fun _ ↦
    leads_bind tacit_get.leads fun _ ↦ leads_bind (tacit_log _).leads fun _ ↦ leads_pure _

omit hs in
theorem on_scan_eq_ok {r r' : RunState} {report : Report} (h : s.scan.on r = (.ok report, r')) : r'.report = report := by
  obtain ⟨_, r₁, _, h⟩ := on_bind_eq_ok h
  obtain ⟨_, r₂, _, h⟩ := on_bind_eq_ok h
  obtain ⟨_, r₃, _, h⟩ := on_bind_eq_ok h
  rw [on_bind_ok (on_get r₃), on_bind_ok (on_log _ r₃)] at h
  obtain ⟨hreport, rfl⟩ := Prod.mk.inj h
  exact Except.ok.inj hreport

end Scanner

namespace Renderer

def failing (R : Renderer) (failFast : Bool) : Renderer := { R with settings := { R.settings with failFast } }

variable (R : Renderer)

/-- Runs that end with the first problem are those that note their problems, up to the first one. Where
nothing goes wrong both give the same report and leave the same state; where something does, the error
of the one is the first problem of the other; and what the one reports is what the other reports. -/
theorem run_failing (hregistry : R.registry = .builtin) (t : Toolkit) (w : Workshop) (d : Document) (M : Model) :
    (∀ report, ((R.failing false).run t w d M).result = .ok report → report.findings = [] →
      (R.failing true).run t w d M = (R.failing false).run t w d M) ∧
    (∀ report f fs, ((R.failing false).run t w d M).result = .ok report → report.findings = f :: fs →
      ∃ e, ((R.failing true).run t w d M).result = .error e ∧
        ∀ name, e.kind = (f.problem name).kind ∧ e.message name = (f.problem name).message) ∧
    ∀ report, ((R.failing true).run t w d M).result = .ok report →
      ((R.failing false).run t w d M).result = .ok report := by
  let s : Scanner := R.scanner t
  have hs : ∀ name h, s.registry.get? name = some h → h.Tacit := by
    intro name h hget
    have hbuiltin : Registry.builtin.get? name = some h := by rwa [← hregistry]
    exact Handler.tacit_of_mem (Registry.mem_of_get? hbuiltin).1
  have hrun : ∀ b, (R.failing b).run t w d M = ⟨((s.failing b).scan.on (R.start w d M)).1, ((s.failing b).scan.on (R.start w d M)).2⟩ :=
    fun _ ↦ rfl
  rw [hrun, hrun]
  dsimp only
  have hreport : ∀ report, ((s.failing false).scan.on (R.start w d M)).1 = .ok report →
      ((s.failing false).scan.on (R.start w d M)).2.report = report :=
    fun report h ↦ Scanner.on_scan_eq_ok (s.failing false) (Prod.ext h rfl)
  rcases s.leads_scan hs (R.start w d M) with ⟨hsame, hnone⟩ | ⟨f, fs, hnoted, hfails⟩
  · rw [hsame]
    refine ⟨fun _ _ _ ↦ rfl, fun report f fs hok hfindings ↦ ?_, fun _ h ↦ h⟩
    rw [hreport report hok, hfindings] at hnone
    cases hnone
  · have hfindings : ∀ report, ((s.failing false).scan.on (R.start w d M)).1 = .ok report → report.findings = f :: fs :=
      fun report hok ↦ by
        rw [hreport report hok] at hnoted
        exact hnoted
    rw [hfails]
    refine ⟨fun report hok hempty ↦ ?_, fun report g gs hok hcons ↦ ?_, fun report hok ↦ ?_⟩
    · rw [hfindings report hok] at hempty
      cases hempty
    · obtain ⟨rfl, -⟩ := List.cons.inj ((hfindings report hok).symm.trans hcons)
      exact ⟨_, rfl, fun _ ↦ ⟨rfl, rfl⟩⟩
    · cases hok

def unboundPops : Document := Document.ofText 0 "$\x7bPop key:'a'\x7d$\x7bPop key:'b'\x7d"

theorem run_failing_unboundPops :
    ∃ e, ((plain.failing true).run (.ofDelimiters .default) plain.workshop unboundPops (.ofData .null)).result = .error e ∧
      ∀ name, e.message name = "Invalid placeholder structure: Pop of unbound variable 'a'" := by
  have hreport : ((plain.failing false).run (.ofDelimiters .default) plain.workshop unboundPops (.ofData .null)).result =
      .ok ⟨0, 0, [⟨.structure (.unbound "a"), some "Pop", "$\x7bPop key:'a'\x7d"⟩,
        ⟨.structure (.unbound "b"), some "Pop", "$\x7bPop key:'b'\x7d"⟩]⟩ := by
    decide +kernel
  have hregistry : plain.registry = .builtin := rfl
  obtain ⟨-, hfirst, -⟩ := plain.run_failing hregistry (.ofDelimiters .default) plain.workshop unboundPops (.ofData .null)
  obtain ⟨e, hresult, he⟩ := hfirst _ _ _ hreport rfl
  exact ⟨e, hresult, fun name ↦ (he name).2⟩

end Renderer

end Stencil
