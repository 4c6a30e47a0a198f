import Stencil.Proofs.Run.FailFast
import Stencil.Proofs.Scan.Visits
/-!
The accounts of a run. A placeholder that is a marker is counted once: as carried out, as left alone,
or as failed, and what is noted of it goes with that. So the report of a run adds up to the placeholders
that the scan met.
-/

namespace Stencil

/-- What becomes of a placeholder: its commands are carried out, up to one that changed the document
with maybe others left behind it; they are left alone; they cannot be read; or one of them fails. -/
inductive Verdict where
  | executed (leftover? : Option (ℕ × String))
  | ignored
  | unreadable (error : Payload.Error)
  | failed (command : String) (error : RunError)

namespace Verdict

def isExecuted : Verdict → Bool
  | executed _ => true
  | _ => false

def isIgnored : Verdict → Bool
  | ignored => true
  | unreadable _ => true
  | _ => false

def isFailed : Verdict → Bool
  | failed _ _ => true
  | _ => false

def hasLeftover : Verdict → Bool
  | executed (some _) => true
  | _ => false

def findings (marker : String) : Verdict → List Finding
  | executed none => []
  | executed (some (count, command)) => [⟨.structure (.leftover count command), some command, marker⟩]
  | ignored => []
  | unreadable e => [⟨.payload e, none, marker⟩]
  | failed command e => [⟨e, some command, marker⟩]

def enter (marker : String) (r : Report) (f : Verdict) : Report :=
  ⟨r.executed + f.isExecuted.toNat, r.ignored + f.isIgnored.toNat, r.findings ++ f.findings marker⟩

/-- The report tells what became of a placeholder. -/
theorem enter_injective (marker : String) (r : Report) : Function.Injective (enter marker r) := by
  intro f g h
  obtain ⟨hexecuted, hignored, hfindings⟩ := Report.mk.inj h
  rw [List.append_cancel_left_eq] at hfindings
  rcases f with (_ | ⟨n, c⟩) | _ | e | ⟨c, e⟩ <;> rcases g with (_ | ⟨n', c'⟩) | _ | e' | ⟨c', e'⟩ <;>
    simp_all [isExecuted, isIgnored, findings]

theorem toNat_add_toNat_add_toNat (f : Verdict) : f.isExecuted.toNat + f.isIgnored.toNat + f.isFailed.toNat = 1 := by
  cases f <;> rfl

theorem isExecuted_of_hasLeftover {f : Verdict} (h : f.hasLeftover = true) : f.isExecuted = true := by
  cases f <;> first | rfl | contradiction

end Verdict

/-- A finding that commands were left unrun behind one that changed the document. -/
def Finding.isNotice (f : Finding) : Bool :=
  match f.error with
  | .structure (.leftover _ _) => true
  | _ => false

/-- A handler whose errors are none of those that a scan notes about commands left unrun. -/
def Handler.Frank (h : Handler) : Prop :=
  ∀ s r count command, ((h.execute s).on r).1 ≠ .error (.structure (.leftover count command))

namespace Run

variable {α β : Type} {marker : String} {P : Verdict → Prop}

/-- A step that settles what becomes of a placeholder, when it comes to an end. -/
def Settles (marker : String) (P : Verdict → Prop) (x : Run α) : Prop :=
  ∀ r a r', x.on r = (.ok a, r') → ∃ f, P f ∧ r'.report = f.enter marker r.report

theorem settles_throw (e : RunError) : Settles marker P (throw e : Run α) := fun _ _ _ h ↦ by cases h

theorem Tacit.settles_bind {x : Run α} {k : α → Run β} (hx : x.Tacit) (hk : ∀ a, Settles marker P (k a)) :
    Settles marker P (x >>= k) := by
  intro r b r' h
  obtain ⟨a, r₁, hfirst, h⟩ := on_bind_eq_ok h
  obtain ⟨f, hf, hreport⟩ := hk a r₁ b r' h
  have hsame := hx r
  rw [hfirst] at hsame
  exact ⟨f, hf, by rw [hreport, hsame]⟩

theorem Tacit.settles_attempt {x : Run α} {k : Except RunError α → Run β} (hx : x.Tacit)
    (hk : ∀ r, Settles marker P (k (x.on r).1)) : Settles marker P (attempt x >>= k) := by
  intro r b r' h
  rw [on_bind_ok (on_attempt x r)] at h
  obtain ⟨f, hf, hreport⟩ := hk r _ _ _ h
  exact ⟨f, hf, by rw [hreport, hx r]⟩

theorem Settles.bind_tacit {x : Run α} {k : α → Run β} (hx : Settles marker P x) (hk : ∀ a, (k a).Tacit) :
    Settles marker P (x >>= k) := by
  intro r b r' h
  obtain ⟨a, r₁, hfirst, h⟩ := on_bind_eq_ok h
  obtain ⟨f, hf, hreport⟩ := hx r a r₁ hfirst
  have hsame := hk a r₁
  rw [h] at hsame
  exact ⟨f, hf, by rw [← hreport]; exact hsame⟩

theorem settles_countExecuted (h : P (.executed none)) : Settles marker P countExecuted := fun r _ r' hon ↦ by
  obtain ⟨-, rfl⟩ := Prod.mk.inj hon
  exact ⟨_, h, by simp [Verdict.enter, Verdict.isExecuted, Verdict.isIgnored, Verdict.findings]⟩

theorem settles_countIgnored (h : P .ignored) : Settles marker P countIgnored := fun r _ r' hon ↦ by
  obtain ⟨-, rfl⟩ := Prod.mk.inj hon
  exact ⟨_, h, by simp [Verdict.enter, Verdict.isExecuted, Verdict.isIgnored, Verdict.findings]⟩

end Run

namespace Verdict

/-- What may become of a placeholder that can be read; no failure of a frank command is one that a scan
notes about commands left unrun. -/
structure Readable (frank : Prop) (f : Verdict) : Prop where
  readable : ∀ e, f ≠ .unreadable e
  genuine : frank → ∀ command count name, f ≠ .failed command (.structure (.leftover count name))

variable {frank : Prop}

theorem readable_executed (leftover? : Option (ℕ × String)) : Readable frank (.executed leftover?) :=
  ⟨fun _ h ↦ (by cases h), fun _ _ _ _ h ↦ by cases h⟩

theorem readable_ignored : Readable frank .ignored := ⟨fun _ h ↦ (by cases h), fun _ _ _ _ h ↦ by cases h⟩

theorem readable_failed {command : String} {e : RunError} (h : frank → ∀ count name, e ≠ .structure (.leftover count name)) :
    Readable frank (.failed command e) :=
  ⟨fun _ h ↦ (by cases h), fun hfrank _ count name heq ↦ h hfrank count name (by cases heq; rfl)⟩

end Verdict

namespace Scanner

open Run

variable {s : Scanner} {frank : Prop}

/-- Where a run goes on after problems, a problem is noted, and that is all. -/
theorem on_record (hfast : s.settings.failFast = false) (p : Placeholder) (command? : Option String) (e : RunError) (r : RunState) :
    ∃ r', (s.record p command? e).on r = (.ok (), r') ∧
      r'.report = { r.report with findings := r.report.findings ++ [⟨e, command?, p.marker⟩] } := by
  rw [record, hfast]
  exact ⟨_, rfl, rfl⟩

theorem settles_record (hfast : s.settings.failFast = false) {p : Placeholder} {command : String} {e : RunError}
    (h : Verdict.Readable frank (.failed command e)) : Settles p.marker (Verdict.Readable frank) (s.record p (some command) e) := by
  intro r a r' hon
  obtain ⟨r₁, hrecord, hreport⟩ := on_record hfast p (some command) e r
  rw [hrecord] at hon
  obtain ⟨-, rfl⟩ := Prod.mk.inj hon
  exact ⟨_, h, by simp [hreport, Verdict.enter, Verdict.isExecuted, Verdict.isIgnored, Verdict.findings]⟩

/-- The removal of a placeholder says where to go on, or is an edit that is refused. -/
theorem on_deletePlaceholder (s : Scanner) (p : Placeholder) (c : Command) (r : RunState) :
    (∃ next r', (s.selection p c).deletePlaceholder.on r = (.ok (some next), r')) ∨
      ∃ e r', (s.selection p c).deletePlaceholder.on r = (.error (.document e), r') := by
  have hdelete : (s.selection p c).deletePlaceholder = do return some (← Selection.removePlaceholder p.node) := rfl
  rw [hdelete, Selection.removePlaceholder, on_bind, on_bind_ok (on_document r), edit, on_bind, on_bind_ok (on_document r)]
  cases r.document.deletePlaceholder p.node with
  | ok d => exact .inl ⟨_, _, rfl⟩
  | error e => exact .inr ⟨_, _, rfl⟩

theorem settles_finish (hfast : s.settings.failFast = false) (p : Placeholder) (c : Command) :
    Settles p.marker (Verdict.Readable frank) (s.finish p c) := by
  refine (Selection.tacit_deletePlaceholder (s.selection p c)).settles_attempt fun r ↦ ?_
  rcases on_deletePlaceholder s p c r with ⟨next, r₁, hdelete⟩ | ⟨e, r₁, hdelete⟩ <;> rw [hdelete]
  · exact (settles_countExecuted (Verdict.readable_executed none)).bind_tacit fun _ ↦ tacit_pure _
  · exact (settles_record hfast (Verdict.readable_failed fun _ _ _ h ↦ by cases h)).bind_tacit fun _ ↦ tacit_pure _

variable (hfast : s.settings.failFast = false) (htacit : ∀ name h, s.registry.get? name = some h → h.Tacit)
  (hfrank : frank → ∀ name h, s.registry.get? name = some h → h.Frank)

include hfast htacit hfrank

theorem settles_carryOut (p : Placeholder) (cs : Commands) (hne : cs ≠ []) :
    Settles p.marker (Verdict.Readable frank) (s.carryOut p cs) := by
  induction cs with
  | nil => contradiction
  | cons c rest ih =>
    rw [carryOut]
    cases hget : s.registry.get? c.name with
    | none => exact settles_throw _
    | some handler =>
      refine (tacit_log _).settles_bind fun _ ↦ (htacit c.name handler hget (s.selection p c)).settles_attempt fun r ↦ ?_
      rcases houtcome : ((handler.execute (s.selection p c)).on r).1 with e | _ | next | _
      · refine (settles_record hfast (Verdict.readable_failed fun hf count name he ↦ ?_)).bind_tacit fun _ ↦ tacit_pure none
        exact hfrank hf c.name handler hget (s.selection p c) r count name (by rw [houtcome, he])
      · exact (settles_countIgnored Verdict.readable_ignored).bind_tacit fun _ ↦ tacit_pure none
      · cases rest with
        | nil => exact (settles_countExecuted (Verdict.readable_executed none)).bind_tacit fun _ ↦ tacit_pure _
        | cons d rest =>
          intro r a r' hon
          obtain ⟨r₁, hrecord, hreport⟩ := on_record hfast p (some c.name) (.structure (.leftover (d :: rest).length c.name))
            { r with report := { r.report with executed := r.report.executed + 1 } }
          have hcount : countExecuted.on r = (.ok (), { r with report := { r.report with executed := r.report.executed + 1 } }) := rfl
          rw [on_bind_ok hcount] at hon
          simp only [List.isEmpty_cons, Bool.not_false, if_true] at hon
          rw [on_bind_ok hrecord, on_pure] at hon
          obtain ⟨-, rfl⟩ := Prod.mk.inj hon
          refine ⟨.executed (some ((d :: rest).length, c.name)), Verdict.readable_executed _, ?_⟩
          rw [hreport]
          rfl
      · cases rest with
        | nil => exact settles_finish hfast p c
        | cons d rest => exact ih (by simp)

theorem settles_dispatch (p : Placeholder) (cs : Commands) (hne : cs ≠ []) :
    Settles p.marker (Verdict.Readable frank) (s.dispatch p cs) := by
  refine tacit_get.settles_bind fun r ↦ ?_
  dsimp only
  cases (cs.map r.aliases.expand).find? fun c ↦ !s.registry.has c.name with
  | none => exact settles_carryOut hfast htacit hfrank p _ (by simpa using hne)
  | some c =>
    cases s.settings.unknownCommand with
    | ignore =>
      exact (tacit_log _).settles_bind fun _ ↦ (settles_countIgnored Verdict.readable_ignored).bind_tacit fun _ ↦ tacit_pure none
    | fail => exact settles_throw _

end Scanner

theorem Payload.read_ne_nil (payload : List Char) : Payload.read payload ≠ .ok [] := by
  rw [Payload.read]
  rcases Payload.readSegments 0 (Payload.segments .outside payload) with e | _ | ⟨c, cs⟩ <;> simp [bind, Except.bind]

/-- What became of a visited placeholder, by the report in front of the visit and behind it. -/
structure Visit.Becomes (t : Delimiters) (v : Visit) (f : Verdict) : Prop where
  report : v.left.report = f.enter v.marker v.met.report
  unreadable : ∀ e, f = .unreadable e ↔ (v.met.document.payload? t v.node).map Payload.read = some (.error e)

/-- A visit has no more than one verdict. -/
theorem Visit.Becomes.unique {t : Delimiters} {v : Visit} {f g : Verdict} (hf : v.Becomes t f) (hg : v.Becomes t g) : f = g :=
  Verdict.enter_injective v.marker v.met.report (hf.report.symm.trans hg.report)

/-- A report with more visits in it: the placeholders carried out and left alone are counted, and what is
noted of each comes in the order of the visits. -/
def Report.withVisits (r : Report) (vs : List Visit) (verdicts : List Verdict) : Report :=
  ⟨r.executed + verdicts.countP Verdict.isExecuted, r.ignored + verdicts.countP Verdict.isIgnored,
    r.findings ++ (List.zipWith (fun v f ↦ f.findings v.marker) vs verdicts).flatten⟩

theorem countP_cons_toNat {α : Type} (p : α → Bool) (a : α) (as : List α) : (a :: as).countP p = (p a).toNat + as.countP p := by
  rw [List.countP_cons, Nat.add_comm]
  cases p a <;> rfl

theorem Report.withVisits_nil (r : Report) : r.withVisits [] [] = r := by simp [withVisits]

theorem Report.withVisits_cons (r : Report) (v : Visit) (vs : List Visit) (f : Verdict) (verdicts : List Verdict) :
    r.withVisits (v :: vs) (f :: verdicts) = (f.enter v.marker r).withVisits vs verdicts := by
  simp only [withVisits, Verdict.enter, countP_cons_toNat, List.zipWith_cons_cons, List.flatten_cons, Nat.add_assoc,
    List.append_assoc]

/-- Findings are counted verdict by verdict. -/
theorem Report.countP_withVisits {p : Finding → Bool} (q q' : Verdict → Bool) {vs : List Visit} {verdicts : List Verdict}
    {R : Visit → Verdict → Prop} (hall : List.Forall₂ R vs verdicts)
    (h : ∀ f ∈ verdicts, ∀ marker, (f.findings marker).countP p = (q f).toNat + (q' f).toNat) (r : Report) :
    (r.withVisits vs verdicts).findings.countP p = r.findings.countP p + (verdicts.countP q + verdicts.countP q') := by
  induction hall generalizing r with
  | nil => simp [withVisits]
  | @cons v f vs verdicts _ _ ih =>
    rw [withVisits_cons, ih fun g hg ↦ h g (List.mem_cons_of_mem _ hg), Verdict.enter, List.countP_append,
      h f (List.mem_cons_self ..), countP_cons_toNat, countP_cons_toNat]
    omega

theorem Verdict.length_eq (verdicts : List Verdict) :
    verdicts.length = verdicts.countP isExecuted + verdicts.countP isIgnored + verdicts.countP isFailed := by
  induction verdicts with
  | nil => rfl
  | cons f verdicts ih =>
    have hone := f.toNat_add_toNat_add_toNat
    rw [List.length_cons, ih, countP_cons_toNat, countP_cons_toNat, countP_cons_toNat]
    omega

namespace Scanner

open Run

variable {s : Scanner} {t : Delimiters} {frank : Prop}

section Counted

variable (ht : t.closing ≠ "") (htoolkit : s.toolkit = .ofDelimiters t) (hfast : s.settings.failFast = false)
  (htacit : ∀ name h, s.registry.get? name = some h → h.Tacit)
  (hfrank : frank → ∀ name h, s.registry.get? name = some h → h.Frank)

include hfast htacit hfrank htoolkit

theorem visit_becomes {v : Visit} {payload : List Char} (hpayload : v.met.document.payload? t v.node = some payload)
    (hvisit : (s.visit v.node).on v.met = (.ok v.next?, v.left)) :
    ∃ f, v.Becomes t f ∧ (frank → ∀ command count name, f ≠ .failed command (.structure (.leftover count name))) := by
  have hdelimiters : s.toolkit.delimiters = t := by rw [htoolkit]; rfl
  rw [visit, on_bind_ok (on_document _)] at hvisit
  dsimp only at hvisit
  rw [hdelimiters, hpayload] at hvisit
  dsimp only at hvisit
  rw [on_bind_ok (on_log _ _)] at hvisit
  cases hread : Payload.read payload with
  | ok cs =>
    rw [hread] at hvisit
    have hne : cs ≠ [] := by
      rintro rfl
      exact Payload.read_ne_nil payload hread
    obtain ⟨f, hf, hreport⟩ := (settles_dispatch hfast htacit hfrank _ cs hne).bind_tacit (fun next? ↦ tacit_resume _ next?) _ _ _ hvisit
    refine ⟨f, ⟨hreport, fun e ↦ ?_⟩, hf.genuine⟩
    rw [hpayload, Option.map_some, hread]
    exact iff_of_false (hf.readable e) (by simp)
  | error e =>
    rw [hread] at hvisit
    dsimp only at hvisit
    obtain ⟨⟨⟩, r₁, hcount, hvisit⟩ := on_bind_eq_ok hvisit
    obtain ⟨⟨⟩, r₂, hrecord, hvisit⟩ := on_bind_eq_ok hvisit
    obtain ⟨-, rfl⟩ := Prod.mk.inj hcount
    obtain ⟨r₃, hnoted, hreport⟩ := on_record hfast ⟨v.node, v.marker, v.met.document.nextAfter? v.node⟩ none (.payload e) _
    obtain ⟨-, rfl⟩ := Prod.mk.inj (hnoted.symm.trans hrecord)
    obtain ⟨-, hleft⟩ := Prod.mk.inj hvisit
    refine ⟨.unreadable e, ⟨?_, fun e' ↦ ?_⟩, fun _ _ _ _ h ↦ by cases h⟩
    · rw [← hleft, hreport]
      rfl
    · rw [hpayload, Option.map_some, hread]
      simp

include ht

/-- A scan that comes to an end has settled what becomes of each placeholder it met, and its report
has nothing else in it. -/
theorem scanFrom_becomes (left : ℕ) (id : NodeId) (r r' : RunState) (h : (s.scanFrom left id).on r = (.ok (), r')) :
    ∃ verdicts : List Verdict, List.Forall₂ (Visit.Becomes t) (s.visits left id r) verdicts ∧
      (frank → ∀ f ∈ verdicts, ∀ command count name, f ≠ .failed command (.structure (.leftover count name))) ∧
      r'.report = r.report.withVisits (s.visits left id r) verdicts := by
  induction left using Nat.strong_induction_on generalizing id r with
  | _ left ih =>
    rcases scanFrom_eq_ok h with ⟨hsearch, hvisits⟩ | ⟨n, found, met, rfl, hsearch, hcourse⟩
    · have hsame := tacit_search s.toolkit id r
      rw [hsearch] at hsame
      refine ⟨[], by rw [hvisits]; exact .nil, by simp, ?_⟩
      rw [hvisits, hsame, Report.withVisits_nil]
    · have hsame := tacit_search s.toolkit id r
      rw [hsearch] at hsame
      have hfound := hsearch
      rw [htoolkit] at hfound
      obtain ⟨payload, hpayload⟩ := payload?_found ht hfound
      rcases hcourse with ⟨hvisit, hvisits⟩ | ⟨next, after, hvisit, hvisits, hrest⟩
      · let v : Visit := ⟨id, found, r, met, r', none⟩
        obtain ⟨f, hf, hgenuine⟩ : ∃ f, v.Becomes t f ∧ _ := visit_becomes htoolkit hfast htacit hfrank hpayload hvisit
        refine ⟨[f], by rw [hvisits]; exact .cons hf .nil, by simpa using hgenuine, ?_⟩
        have hreport : r'.report = f.enter v.marker met.report := hf.report
        rw [hreport, hvisits, hsame, Report.withVisits_cons, Report.withVisits_nil]
      · let v : Visit := ⟨id, found, r, met, after, some next⟩
        obtain ⟨f, hf, hgenuine⟩ : ∃ f, v.Becomes t f ∧ _ := visit_becomes htoolkit hfast htacit hfrank hpayload hvisit
        obtain ⟨verdicts, hverdicts, hothers, htotal⟩ := ih n (Nat.lt_succ_self n) next after hrest
        have hreport : after.report = f.enter v.marker met.report := hf.report
        refine ⟨f :: verdicts, by rw [hvisits]; exact .cons hf hverdicts, fun hf' g hg ↦ ?_, ?_⟩
        · rcases List.mem_cons.1 hg with rfl | hg
          · exact hgenuine hf'
          · exact hothers hf' g hg
        · rw [htotal, hreport, hvisits, hsame, Report.withVisits_cons]

end Counted

/-- Where nothing ends a marker, no placeholder is counted. -/
theorem scanFrom_uncounted (ht : t.closing = "") (htoolkit : s.toolkit = .ofDelimiters t) (left : ℕ) (id : NodeId) :
    (s.scanFrom left id).Tacit := by
  have hpayload : ∀ (d : Document) (found : NodeId), d.payload? s.toolkit.delimiters found = none := fun d found ↦ by
    rw [htoolkit]
    exact Document.payload?_of_closing_nil ht found
  have hvisit : ∀ found, (s.visit found).Tacit := fun found ↦ tacit_bind tacit_document fun d ↦ by
    dsimp only
    rw [hpayload]
    exact tacit_pure _
  induction left generalizing id with
  | zero =>
    rw [scanFrom]
    refine tacit_bind (tacit_search s.toolkit id) fun found? ↦ ?_
    cases found? with
    | none => exact tacit_pure ()
    | some found => exact tacit_throw _
  | succ n ih =>
    rw [scanFrom]
    refine tacit_bind (tacit_search s.toolkit id) fun found? ↦ ?_
    cases found? with
    | none => exact tacit_pure ()
    | some found =>
      refine tacit_bind (hvisit found) fun next? ↦ ?_
      cases next? with
      | none => exact tacit_pure ()
      | some next => exact ih next

end Scanner

namespace Renderer

variable (R : Renderer)

/-- No placeholder goes unaccounted, where something ends a marker. Every visit counts as carried out, as
left alone or as failed, one of the three, and the report has nothing else in it: it is left alone
with one finding and no command exactly when it cannot be read, a finding with a command is that of a
failure or the notice of a visit that was carried out, and there is at most one of these for each.
Where nothing ends a marker, placeholders are visited, and none is counted. -/
theorem run_accounted (hfast : R.settings.failFast = false)
    (hregistry : ∀ name h, R.registry.get? name = some h → h.Tacit) (t : Delimiters) (w : Workshop) (d : Document) (M : Model)
    {report : Report} (hok : (R.run (.ofDelimiters t) w d M).result = .ok report) :
    (t.closing ≠ "" → ∃ verdicts : List Verdict,
      List.Forall₂ (Visit.Becomes t) (R.visits (.ofDelimiters t) w d M) verdicts ∧
      report = Report.empty.withVisits (R.visits (.ofDelimiters t) w d M) verdicts ∧
      (R.visits (.ofDelimiters t) w d M).length = report.executed + report.ignored + verdicts.countP Verdict.isFailed ∧
      report.findings.countP (·.command?.isSome) = verdicts.countP Verdict.isFailed + verdicts.countP Verdict.hasLeftover ∧
      verdicts.countP Verdict.hasLeftover ≤ report.executed ∧
      ((∀ name h, R.registry.get? name = some h → h.Frank) →
        report.findings.countP (fun f ↦ f.command?.isSome && !f.isNotice) = verdicts.countP Verdict.isFailed)) ∧
    (t.closing = "" → report = .empty) := by
  obtain ⟨r', hfrom, hreport⟩ := scanFrom_of_run R hok
  refine ⟨fun ht ↦ ?_, fun ht ↦ ?_⟩
  · have hfrank : (∀ name h, R.registry.get? name = some h → h.Frank) → _ := id
    obtain ⟨verdicts, hbecomes, hgenuine, htotal⟩ := Scanner.scanFrom_becomes (s := R.scanner (.ofDelimiters t)) ht rfl hfast
      hregistry hfrank _ _ _ _ hfrom
    have hverdicts : List.Forall₂ (Visit.Becomes t) (R.visits (.ofDelimiters t) w d M) verdicts := hbecomes
    have htotal : report = Report.empty.withVisits (R.visits (.ofDelimiters t) w d M) verdicts := hreport.symm.trans htotal
    refine ⟨verdicts, hverdicts, htotal, ?_, ?_, ?_, fun hfrank ↦ ?_⟩
    · rw [hverdicts.length_eq, Verdict.length_eq, htotal]
      simp [Report.withVisits, Report.empty]
    · rw [htotal, Report.countP_withVisits Verdict.isFailed Verdict.hasLeftover hverdicts]
      · simp [Report.empty]
      · intro f _ marker
        rcases f with (_ | ⟨n, c⟩) | _ | _ | ⟨c, e⟩ <;> rfl
    · rw [htotal]
      simpa [Report.withVisits, Report.empty] using List.countP_mono_left fun f _ ↦ Verdict.isExecuted_of_hasLeftover
    · rw [htotal, Report.countP_withVisits Verdict.isFailed (fun _ ↦ false) hverdicts]
      · simp [Report.empty]
      · intro f hf marker
        rcases f with (_ | ⟨n, c⟩) | _ | _ | ⟨c, e⟩
        · rfl
        · rfl
        · rfl
        · rfl
        · have hnotice : (Finding.mk e (some c) marker).isNotice = false := by
            cases hn : (Finding.mk e (some c) marker).isNotice with
            | false => rfl
            | true =>
              rw [Finding.isNotice] at hn
              split at hn
              · next count name heq => exact absurd (congrArg _ heq) (hgenuine hfrank _ hf c count name)
              · cases hn
          simp [Verdict.findings, Verdict.isFailed, hnotice]
  · have hsame := Scanner.scanFrom_uncounted (s := R.scanner (.ofDelimiters t)) ht rfl R.settings.maxSteps d.root
      (R.begun w d M)
    rw [hfrom, hreport] at hsame
    exact hsame

/-- A rewrite with a command left behind it, a marker that does not read, an unknown command, and one
that fails. -/
def fourMarkers : Document := Document.ofText 0 "$\x7b@a; Pop key:'b'\x7d $\x7b?\x7d $\x7bNone\x7d $\x7bPop key:'z'\x7d"

theorem run_accounted_fourMarkers : ∃ verdicts : List Verdict,
    List.Forall₂ (Visit.Becomes .default) (plain.visits (.ofDelimiters .default) plain.workshop fourMarkers (.ofData .null)) verdicts ∧
      verdicts.length = 1 + 2 + 1 ∧ verdicts.countP Verdict.isFailed = 1 ∧ verdicts.countP Verdict.hasLeftover = 1 := by
  have hok : (plain.run (.ofDelimiters .default) plain.workshop fourMarkers (.ofData .null)).result =
      .ok ⟨1, 2, [⟨.structure (.leftover 1 "String"), some "String", "$\x7b@a; Pop key:'b'\x7d"⟩,
        ⟨.payload (.unknownCharacter ⟨0, 1⟩), none, "$\x7b?\x7d"⟩,
        ⟨.structure (.unbound "z"), some "Pop", "$\x7bPop key:'z'\x7d"⟩]⟩ := by
    decide +kernel
  have hregistry : ∀ name h, plain.registry.get? name = some h → h.Tacit := fun name h hget ↦
    Handler.tacit_of_mem (Registry.mem_of_get? hget).1
  obtain ⟨hcounted, -⟩ := plain.run_accounted rfl hregistry .default plain.workshop fourMarkers (.ofData .null) hok
  obtain ⟨verdicts, hverdicts, -, hvisits, hcommands, hleftover, -⟩ := hcounted (by decide)
  have hlength : verdicts.length = 1 + 2 + verdicts.countP Verdict.isFailed := by rw [← hverdicts.length_eq, hvisits]
  have hfindings : 2 = verdicts.countP Verdict.isFailed + verdicts.countP Verdict.hasLeftover := hcommands
  have hnotices : verdicts.countP Verdict.hasLeftover ≤ 1 := hleftover
  have hfound : (plain.visits (.ofDelimiters .default) plain.workshop fourMarkers (.ofData .null)).length = 4 := by
    decide +kernel
  have hfour : verdicts.length = 4 := hverdicts.length_eq.symm.trans hfound
  exact ⟨verdicts, hverdicts, by omega, by omega, by omega⟩

example : (plain.visits (.ofDelimiters ⟨"$", ""⟩) plain.workshop (.ofText 0 "a$b") (.ofData .null)).length = 1 := by
  decide +kernel

end Renderer

end Stencil
