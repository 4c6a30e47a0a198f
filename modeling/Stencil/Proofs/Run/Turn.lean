import Stencil.Proofs.Command.Answer
import Stencil.Proofs.Command.OffSheet
/-!
One turn of a scan: the marker that the scan has met at a slot is dealt with, and the scan goes on in
the page. As long as no command has come that the manual leaves out, the turn comes to what it comes to on
the sheet.
-/

namespace Stencil

open Document (ahead?)

variable {t : Delimiters} {s s' : Slot} {r r' r'' : RunState} {p : Placeholder} {payload : List Char} {sc : Scanner}
  {m : Manual}

/-- A command was met that the manual leaves out. -/
def Manual.Strays (m : Manual) (log : List Event) : Prop := ∃ name ∈ m.omits, ∃ id, .dispatching name id ∈ log

/-- What came is what was expected on the sheet, or nothing was since a command was met that the manual
leaves out. -/
def Manual.Expects {α : Type} (m : Manual) (log : List Event) (expected? : Option α) (actual : α) : Prop :=
  expected? = some actual ∨ expected? = none ∧ m.Strays log

theorem Manual.Strays.later {log log' : List Event} (h : m.Strays log) (hlog : ∃ new, log' = new ++ log) : m.Strays log' := by
  obtain ⟨name, hname, id, hmem⟩ := h
  obtain ⟨new, rfl⟩ := hlog
  exact ⟨name, hname, id, List.mem_append_right _ hmem⟩

/-- What a turn leaves: a galley that the scan goes on in. It comes back to what stands before the marker
in its block only when blocks were merged. -/
structure Slot.Turns (s : Slot) (r r' : RunState) (G : Galley) : Prop where
  grows : r.document.Grows r'.document
  page : r'.document.Shows G.page
  onward : ∃ again new, r'.log = new ++ r.log ∧ s.Onward r.document again G ∧
    ((∀ e ∈ new, e.merges = false) ∧ again = [] ∨ (∃ e ∈ new, e.merges = true) ∧ again = s.bid :: s.left.map Leaf.id)

theorem Slot.Turns.grown {G : Galley} (h : s.Turns r r' G) : ∃ new, r'.log = new ++ r.log := by
  obtain ⟨_, new, hnew, _⟩ := h.onward
  exact ⟨new, hnew⟩

/-- What a step of a turn comes to: an error, or a galley that the scan goes on in. It is what is
expected on the sheet. -/
inductive Slot.Ends (m : Manual) (t : Delimiters) (s : Slot) (r r' : RunState) (expected? : Option (Except RunError Draft)) {α : Type}
    (goes : α → Galley → Prop) : Except RunError α → Prop where
  | failed {e : RunError} : (t.Visible → ∀ x, expected? = some x → x = .error e) → Ends m t s r r' expected? goes (.error e)
  | turned {a : α} {G : Galley} : s.Turns r r' G → goes a G →
      (t.Visible → m.Expects r'.log expected? (.ok ⟨G.sheet t, r'.desk, r'.report⟩)) → Ends m t s r r' expected? goes (.ok a)

/-- What a step comes to when something else is expected of it only where a command was met that the manual
leaves out. -/
theorem Slot.Ends.expect {α : Type} {expected? expected'? : Option (Except RunError Draft)} {goes : α → Galley → Prop}
    {result : Except RunError α} (h : Slot.Ends m t s r r' expected? goes result)
    (hsame : t.Visible → expected'? = expected? ∨ expected'? = none ∧ m.Strays r.log) : Slot.Ends m t s r r' expected'? goes result := by
  cases h with
  | failed hfailed =>
    refine .failed fun ht x hx ↦ ?_
    rcases hsame ht with rfl | ⟨rfl, _⟩
    · exact hfailed ht x hx
    · cases hx
  | turned hturns hgoes hexact =>
    refine .turned hturns hgoes fun ht ↦ ?_
    rcases hsame ht with rfl | ⟨rfl, hstrays⟩
    · exact hexact ht
    · exact .inr ⟨rfl, hstrays.later hturns.grown⟩

namespace Scanner

def GoesOn (d : Document) (p : Placeholder) (next? : Option Continuation) (G : Galley) : Prop :=
  resumption d p (next?.getD .proceed) = G.next?

end Scanner

namespace Slot

theorem Turns.later {G : Galley} (h : s.Turns r r' G) (hdoc : r''.document = r'.document)
    (hlog : ∃ new, r''.log = new ++ r'.log ∧ ∀ e ∈ new, e.merges = false) : s.Turns r r'' G := by
  obtain ⟨again, new, hnew, honward, hagain⟩ := h.onward
  obtain ⟨new', hnew', hquiet⟩ := hlog
  exact ⟨hdoc ▸ h.grows, hdoc ▸ h.page, again, new' ++ new, by rw [hnew', hnew, List.append_assoc], honward,
    hagain.imp (And.imp_left fun h ↦ List.forall_mem_append.2 ⟨hquiet, h⟩)
      (And.imp_left fun ⟨e, he, hmerges⟩ ↦ ⟨e, List.mem_append_right _ he, hmerges⟩)⟩

theorem Turns.earlier {G : Galley} (h : s.Turns r' r'' G) (hdoc : r'.document = r.document)
    (hlog : ∃ new, r'.log = new ++ r.log ∧ ∀ e ∈ new, e.merges = false) : s.Turns r r'' G := by
  obtain ⟨again, new, hnew, honward, hagain⟩ := h.onward
  obtain ⟨new', hnew', hquiet⟩ := hlog
  exact ⟨hdoc ▸ h.grows, h.page, again, new ++ new', by rw [hnew, hnew', List.append_assoc], hdoc ▸ honward,
    hagain.imp (And.imp_left fun h ↦ List.forall_mem_append.2 ⟨h, hquiet⟩)
      (And.imp_left fun ⟨e, he, hmerges⟩ ↦ ⟨e, List.mem_append_left _ he, hmerges⟩)⟩

theorem Turns.of_leads {G : Galley} (h : r.Leads r') (hpage : r'.document.Shows G.page) (honward : s.Onward r.document [] G) :
    s.Turns r r' G := by
  obtain ⟨new, hnew, hquiet⟩ := h.log
  exact ⟨h.grows, hpage, [], new, hnew, honward, .inl ⟨hquiet, rfl⟩⟩

theorem Turns.of_idles {G : Galley} (hidles : r.Idles r') (h : s.Turns r' r'' G) : s.Turns r r'' G := by
  exact h.earlier hidles.document hidles.log

theorem Ends.of_idles {α : Type} {expected? : Option (Except RunError Draft)} {goes : α → Galley → Prop}
    {result : Except RunError α} (hidles : r.Idles r') (h : s.Ends m t r' r'' expected? goes result) :
    s.Ends m t r r'' expected? goes result := by
  cases h with
  | failed hfailed => exact .failed hfailed
  | turned hturns hgoes hexact => exact .turned (hturns.of_idles hidles) hgoes hexact

theorem Stands.turns (h : s.Stands t s' r r') : s.Turns r r' (s'.passed s'.mark) := by
  have hpage : (s'.passed s'.mark).page = s'.page := by simp [passed, Galley.page, Slot.page]
  refine .of_leads h.leads (hpage ▸ h.page) (.intro (fun id hid ↦ h.ahead id hid) fun l hl ↦ ?_)
  rw [passed, Galley.behind, ← List.append_assoc] at hl
  rcases List.mem_append.1 hl with hl | hl
  · exact .inl (h.behind ▸ hl)
  · rw [List.mem_singleton.1 hl, h.mark]
    exact .inr (.inl rfl)

theorem Stands.goesOn (h : s.Stands t s' r r') (hp : s.Meets p) (hdoc : r''.document = r'.document) :
    Scanner.GoesOn r''.document p none (s'.passed s'.mark) := by
  rw [Scanner.GoesOn, Option.getD_none, hdoc]
  exact Slot.resumption_proceed h.page (h.mark ▸ hp.node)

theorem Stands.sheet (h : s.Stands t s' r r') (hcontent : s.mark.content = .text (String.ofList (t.enclose payload)))
    (ht : t.Visible) : (s'.passed s'.mark).sheet t = (s.gap t payload).kept t := by
  rw [sheet_passed s' payload, h.mark, hcontent, h.gap ht.toProper]
  rfl

end Slot

namespace Scanner

open Run

/-- What was noted at a placeholder, or that the run ended with it. -/
theorem record_on (sc : Scanner) (p : Placeholder) (name? : Option String) (e : RunError) (r : RunState) :
    (sc.settings.failFast = true ∧ (sc.record p name? e).on r = (.error e, r)) ∨
    sc.settings.failFast = false ∧ (sc.record p name? e).on r = (.ok (), { r with
      log := .recorded ⟨e, name?, p.marker⟩ :: r.log
      report := { r.report with findings := r.report.findings ++ [⟨e, name?, p.marker⟩] } }) := by
  cases hfast : sc.settings.failFast with
  | true =>
    refine .inl ⟨rfl, ?_⟩
    rw [record, if_pos hfast, on_bind_error (on_throw e r)]
  | false =>
    refine .inr ⟨rfl, ?_⟩
    rw [record, if_neg (by simp [hfast])]
    rfl

theorem on_countExecuted (r : RunState) : countExecuted.on r = (.ok (), { r with report := r.report.addExecuted }) := rfl

theorem on_countIgnored (r : RunState) : countIgnored.on r = (.ok (), { r with report := r.report.addIgnored }) := rfl

theorem answer_on (hs : sc.registry = .builtin) (htoolkit : sc.toolkit = .ofDelimiters t) (hm : sc.Follows m) {c : Command}
    {h : Handler} (hget : sc.registry.get? c.name = some h) (hshows : r.document.Shows s.page) (hp : s.Meets p)
    (hcontent : s.mark.content = .text (String.ofList (t.enclose payload))) :
    s.Answers t p r (h.execute (sc.selection p c)) ((s.gap t payload).answer m t c r.desk) := by
  have hc : s.Hosts t (sc.selection p c) payload := ⟨hp.node, congrArg some htoolkit, hcontent⟩
  have hbuiltin : Registry.builtin.get? c.name = some h := hs ▸ hget
  have hunless : ∀ {x : Run Outcome} {expected? : Option (Except RunError Upshot × Desk)}, s.Answers t p r x expected? →
      s.Answers t p r x (if c.name ∈ m.omits then none else expected?) := fun h ↦ by
    split
    · obtain ⟨result, upshot?, r', hon, hcomes, _⟩ := h
      exact ⟨result, upshot?, r', hon, hcomes, by simp⟩
    · exact h
  rw [Gap.answer]
  by_cases hclone : c.name = "Clone"
  · rw [hclone] at hbuiltin
    obtain rfl : Handler.copy = h := Option.some.inj hbuiltin
    rw [if_pos (hclone ▸ hm.clone)]
    exact Slot.copy_on hshows hc
  by_cases hif : c.name = "If"
  · rw [hif] at hbuiltin
    obtain rfl : Handler.conditional = h := Option.some.inj hbuiltin
    rw [if_pos hif]
    exact hunless (Slot.conditional_on hshows hp hc)
  rw [if_neg hif]
  by_cases hfor : c.name = "For"
  · rw [hfor] at hbuiltin
    obtain rfl : Handler.loop = h := Option.some.inj hbuiltin
    rw [if_pos hfor]
    exact hunless (Slot.loop_on hshows hc)
  rw [if_neg hfor]
  by_cases hignore : c.name = "Ignore"
  · rw [hignore] at hbuiltin
    obtain rfl : Handler.ignored = h := Option.some.inj hbuiltin
    rw [if_pos hignore]
    exact hunless (Slot.ignored_on hshows hp hc)
  rw [if_neg hignore]
  have hopen : c.name ∉ Manual.openers := by simp [Manual.openers, hif, hfor, hignore]
  by_cases homit : c.name ∈ m.omits
  · obtain ⟨f, _, _, hf⟩ := Handler.performs_builtin hbuiltin hclone hopen (sc.selection p c)
    have hacts : (sc.selection p c).Acts (h.execute (sc.selection p c)) f := hf p.node sc.toolkit
    have hanswers := hunless (Slot.acts_on hshows hp hc hacts)
    rw [if_pos homit] at hanswers ⊢
    exact hanswers
  · exact hunless (Slot.acts_on hshows hp hc (hm.acts c h hget homit hopen p))

section Commands

variable (hp : s.Meets p) (hcontent : s.mark.content = .text (String.ofList (t.enclose payload)))
  (hmarker : p.marker = String.ofList (t.enclose payload)) (htoolkit : sc.toolkit = .ofDelimiters t)

include hp in
theorem finish_on (sc : Scanner) (hshows : r.document.Shows s.page) (c : Command) : ∃ next r', (sc.finish p c).on r = (.ok (some next), r') ∧
    s.Turns r r' s.removed ∧ GoesOn r'.document p (some next) s.removed ∧ r'.desk = r.desk ∧
      r'.report = r.report.addExecuted := by
  obtain ⟨r', hon, hkeeps, hpage, _⟩ := s.removed_on hshows
  have hdelete : (sc.selection p c).deletePlaceholder.on r = (.ok (some (.toward s.removed.next?)), r') := by
    rw [Selection.deletePlaceholder]
    dsimp only [selection]
    rw [hp.node, on_bind_ok hon, on_pure]
  refine ⟨.toward s.removed.next?, { r' with report := r'.report.addExecuted }, ?_,
    Slot.Turns.later (.of_leads hkeeps.toLeads hpage (.intro (fun id hid ↦ .inl (s.ahead_removed id hid))
      fun l hl ↦ .inl (s.behind_removed l hl))) rfl ⟨[], rfl, by simp⟩, Galley.resumption hpage, hkeeps.desk, by rw [← hkeeps.report]⟩
  rw [finish, on_bind_ok (on_attempt _ r), hdelete]
  dsimp only
  rw [on_bind_ok (on_countExecuted r'), on_pure]

include hmarker htoolkit in
theorem note_on {G : Galley} {next? : Option Continuation} {sheet : Sheet} {k : Desk} {report : Report} (hturns : s.Turns r r' G)
    (hgoes : GoesOn r'.document p next? G) (hexact : t.Visible → G.sheet t = sheet ∧ r'.desk = k ∧ r'.report = report)
    (name? : Option String) (e : RunError) : ∃ result r'', (do
        sc.record p name? e
        return next? : Run (Option Continuation)).on r' = (result, r'') ∧
      s.Ends m t r r'' (some (((s.gap t payload).record sc name? e report).map fun report ↦ ⟨sheet, k, report⟩))
        (GoesOn r''.document p) result := by
  have hgap : (s.gap t payload).marker sc.toolkit.delimiters = p.marker := by rw [htoolkit, hmarker]; rfl
  rw [Gap.record, hgap]
  rcases record_on sc p name? e r' with ⟨hfast, hon⟩ | ⟨hfast, hon⟩
  · refine ⟨.error e, r', on_bind_error hon, .failed fun _ x hx ↦ ?_⟩
    rw [← Option.some.inj hx, if_pos hfast]
    rfl
  · refine ⟨.ok next?, _, on_bind_ok hon, .turned (hturns.later rfl ⟨[_], rfl, by simp [Event.merges]⟩) hgoes fun ht ↦ .inl ?_⟩
    obtain ⟨rfl, rfl, rfl⟩ := hexact ht
    rw [if_neg (by simp [hfast])]
    rfl

include hmarker htoolkit in
/-- A command moved the scan on: what is left of the marker is noted. -/
theorem moved_on {G : Galley} {next : Continuation} (hturns : s.Turns r r' G) (hgoes : GoesOn r'.document p (some next) G)
    (c : Command) (rest : Commands) :
    ∃ result r'', (do
        countExecuted
        if !rest.isEmpty then sc.record p (some c.name) (.structure (.leftover rest.length c.name))
        return some next : Run (Option Continuation)).on r' = (result, r'') ∧
      s.Ends m t r r'' (if rest.isEmpty then some (.ok ⟨G.sheet t, r'.desk, r'.report.addExecuted⟩)
        else some (((s.gap t payload).record sc (some c.name) (.structure (.leftover rest.length c.name))
          r'.report.addExecuted).map fun report ↦ ⟨G.sheet t, r'.desk, report⟩)) (GoesOn r''.document p) result := by
  have hturns' : s.Turns r { r' with report := r'.report.addExecuted } G := hturns.later rfl ⟨[], rfl, by simp⟩
  rw [on_bind_ok (on_countExecuted r')]
  cases hrest : rest.isEmpty with
  | true => exact ⟨.ok (some next), _, rfl, .turned hturns' hgoes fun _ ↦ .inl rfl⟩
  | false =>
    exact note_on hmarker htoolkit hturns' hgoes (fun _ ↦ ⟨rfl, rfl, rfl⟩) (some c.name) (.structure (.leftover rest.length c.name))

variable (hs : sc.registry = .builtin) (hm : sc.Follows m)

include hp hcontent hmarker htoolkit hs hm

/-- Commands carried out one after another at a slot come to what they come to on the sheet. -/
theorem carryOut_on : ∀ (cs : Commands) (r : RunState), r.document.Shows s.page → ∃ result r', (sc.carryOut p cs).on r = (result, r') ∧
    s.Ends m t r r' ((s.gap t payload).carryOut sc m cs r.desk r.report) (GoesOn r'.document p) result := by
  have hdelimiters : sc.toolkit.delimiters = t := congrArg Toolkit.delimiters htoolkit
  intro cs
  induction cs with
  | nil =>
    intro r hshows
    have hstands := Slot.Stands.refl (t := t) hshows
    refine ⟨.ok none, r, rfl, .turned hstands.turns (hstands.goesOn hp rfl) fun ht ↦ .inl ?_⟩
    rw [Gap.carryOut, hdelimiters, hstands.sheet hcontent ht]
  | cons c cs ih =>
    intro r hshows
    rw [carryOut, Gap.carryOut, hdelimiters]
    cases hget : sc.registry.get? c.name with
    | none =>
      refine ⟨.error (.unknownCommand c.name), r, on_throw _ r, .failed fun _ x hx ↦ ?_⟩
      rw [← Option.some.inj hx]
    | some h =>
      let r₀ : RunState := { r with log := .dispatching c.name p.node :: r.log }
      have hidles : r.Idles r₀ := ⟨⟨⟨[_], rfl, by simp [Event.merges]⟩, .refl _, rfl⟩, rfl⟩
      obtain ⟨result, upshot?, r₁, hon, hcomes, hexact⟩ := answer_on hs htoolkit hm hget (r := r₀) hshows hp hcontent
      dsimp only
      rw [on_bind_ok (on_log _ r), on_bind_ok (on_attempt _ r₀), hon]
      -- what the sheet expects, unless the manual leaves the command out
      have hanswer : t.Visible → ((s.gap t payload).answer m t c r.desk = none ∧ m.Strays r₀.log) ∨
          ∃ u, upshot? = some u ∧ (s.gap t payload).answer m t c r.desk = some (u, r₁.desk) := fun ht ↦ by
        rcases hy : (s.gap t payload).answer m t c r.desk with _ | ⟨u, k⟩
        · exact .inl ⟨rfl, c.name, Gap.mem_omits_of_answer hy, p.node, List.mem_cons_self ..⟩
        · obtain ⟨hu, rfl⟩ := hexact ht _ hy
          exact .inr ⟨u, hu, rfl⟩
      generalize (s.gap t payload).answer m t c r.desk = answer? at hanswer ⊢
      suffices hsuffices : ∀ {x : Run (Option Continuation)} {expected? expected'? : Option (Except RunError Draft)},
          (∃ result r', x.on r₁ = (result, r') ∧ s.Ends m t r₀ r' expected? (GoesOn r'.document p) result) →
          (t.Visible → expected'? = expected? ∨ expected'? = none ∧ m.Strays r₀.log) →
          ∃ result r', x.on r₁ = (result, r') ∧ s.Ends m t r r' expected'? (GoesOn r'.document p) result by
        cases hcomes with
        | failed hstands =>
          rename_i s' e
          have hkept : t.Visible → (s'.passed s'.mark).sheet t = (s.gap t payload).kept t ∧ r₁.desk = r₁.desk ∧
              r₁.report = r.report := fun ht ↦ ⟨hstands.sheet hcontent ht, rfl, hstands.leads.report⟩
          refine hsuffices (note_on hmarker htoolkit hstands.turns (hstands.goesOn hp rfl) hkept (some c.name) e) fun ht ↦ ?_
          rcases hanswer ht with ⟨rfl, hstrays⟩ | ⟨u, hu, rfl⟩
          · exact .inr ⟨rfl, hstrays⟩
          · obtain rfl := Option.some.inj hu
            exact .inl rfl
        | ignored hstands =>
          rename_i s'
          refine hsuffices ⟨.ok none, _, on_bind_ok (on_countIgnored r₁), .turned (hstands.turns.later rfl ⟨[], rfl, by simp⟩)
            (hstands.goesOn hp rfl) fun ht ↦ .inl rfl⟩ fun ht ↦ ?_
          rcases hanswer ht with ⟨rfl, hstrays⟩ | ⟨u, hu, rfl⟩
          · exact .inr ⟨rfl, hstrays⟩
          · obtain rfl := Option.some.inj hu
            dsimp only
            rw [hstands.sheet hcontent ht, hstands.leads.report]
            exact .inl rfl
        | consumed hidles₁ =>
          have hreport : r₁.report = r.report := hidles₁.report
          have hshows₁ : r₁.document.Shows s.page := hidles₁.document ▸ hshows
          dsimp only
          cases hrest : cs.isEmpty with
          | true =>
            obtain ⟨next, r₂, hfinish, hturns, hgoes, hdesk, hreport₂⟩ := finish_on hp sc hshows₁ c
            refine hsuffices ⟨.ok (some next), r₂, hfinish, .turned (hturns.of_idles hidles₁) hgoes fun ht ↦ .inl rfl⟩ fun ht ↦ ?_
            rcases hanswer ht with ⟨rfl, hstrays⟩ | ⟨u, hu, rfl⟩
            · exact .inr ⟨rfl, hstrays⟩
            · obtain rfl := Option.some.inj hu
              rw [Slot.sheet_removed ht s payload, hdesk, hreport₂, hreport]
              exact .inl rfl
          | false =>
            obtain ⟨result, r₂, hcarry, hends⟩ := ih r₁ hshows₁
            refine hsuffices ⟨result, r₂, hcarry, hends.of_idles hidles₁⟩ fun ht ↦ ?_
            rcases hanswer ht with ⟨rfl, hstrays⟩ | ⟨u, hu, rfl⟩
            · exact .inr ⟨rfl, hstrays⟩
            · obtain rfl := Option.some.inj hu
              rw [hreport]
              exact .inl rfl
        | moved hleads hpage hnext honward =>
          rename_i G next
          refine hsuffices (moved_on hmarker htoolkit (.of_leads hleads hpage honward) hnext c cs) fun ht ↦ ?_
          rcases hanswer ht with ⟨rfl, hstrays⟩ | ⟨u, hu, rfl⟩
          · exact .inr ⟨rfl, hstrays⟩
          · obtain rfl := Option.some.inj hu
            rw [hleads.report]
            exact .inl rfl
        | merged hgrows hreport hlog hmerges hpage hnext honward =>
          refine hsuffices (moved_on hmarker htoolkit ⟨hgrows, hpage, _, _, hlog, honward, .inr ⟨⟨_, hmerges, rfl⟩, rfl⟩⟩ hnext c cs)
            fun ht ↦ ?_
          rcases hanswer ht with ⟨rfl, hstrays⟩ | ⟨u, hu, rfl⟩
          · exact .inr ⟨rfl, hstrays⟩
          · obtain rfl := Option.some.inj hu
            rw [hreport]
            exact .inl rfl
        | strayed hleads hpage hnext honward =>
          rename_i G next
          refine hsuffices (moved_on hmarker htoolkit (.of_leads hleads hpage honward) hnext c cs) fun ht ↦ ?_
          rcases hanswer ht with ⟨rfl, hstrays⟩ | ⟨u, hu, rfl⟩
          · exact .inr ⟨rfl, hstrays⟩
          · cases hu
      rintro x expected? expected'? ⟨result, r', hx, hends⟩ hexpected
      exact ⟨result, r', hx, (hends.expect hexpected).of_idles hidles⟩

theorem dispatch_on (cs : Commands) (hshows : r.document.Shows s.page) : ∃ result r', (sc.dispatch p cs).on r = (result, r') ∧
    s.Ends m t r r' ((s.gap t payload).dispatch sc m cs r.desk r.report) (GoesOn r'.document p) result := by
  have hdelimiters : sc.toolkit.delimiters = t := congrArg Toolkit.delimiters htoolkit
  rw [dispatch, Gap.dispatch, on_bind_ok (on_get r)]
  have haliases : r.desk.aliases = r.aliases := rfl
  dsimp only
  rw [haliases]
  cases (cs.map r.aliases.expand).find? fun c ↦ !sc.registry.has c.name with
  | none => exact carryOut_on hp hcontent hmarker htoolkit hs hm _ r hshows
  | some c =>
    dsimp only
    cases sc.settings.unknownCommand with
    | fail => exact ⟨_, r, on_throw _ r, .failed fun _ x hx ↦ (Option.some.inj hx).symm⟩
    | ignore =>
      have hstands := Slot.Stands.refl (t := t) hshows
      refine ⟨.ok none, _, rfl, .turned (hstands.turns.later rfl ⟨[.ignoredUnknown c.name], rfl, by simp [Event.merges]⟩) (hstands.goesOn hp rfl)
        fun ht ↦ .inl ?_⟩
      rw [hdelimiters, hstands.sheet hcontent ht]
      rfl

end Commands

theorem resume_on {G : Galley} {next? : Option Continuation} (hgoes : GoesOn r.document p next? G) :
    ∃ r', (resume p next?).on r = (.ok G.next?, r') ∧ r.Idles r' ∧ r'.desk = r.desk := by
  rw [resume, on_bind_ok (on_document r)]
  dsimp only
  rw [show resumption r.document p (next?.getD .proceed) = G.next? from hgoes]
  cases hnext : G.next? with
  | none => exact ⟨_, rfl, ⟨⟨⟨[.scanEnds p.node], rfl, by simp [Event.merges]⟩, .refl _, rfl⟩, rfl⟩, rfl⟩
  | some id => exact ⟨r, rfl, .refl r, rfl⟩

theorem visit_on (hs : sc.registry = .builtin) (htoolkit : sc.toolkit = .ofDelimiters t) (hm : sc.Follows m)
    (hshows : r.document.Shows s.page) (hcontent : s.mark.content = .text (String.ofList (t.enclose payload)))
    (hread : t.Proper → t.payload? (t.enclose payload) = some payload) :
    ∃ result r', (sc.visit s.mark.id).on r = (result, r') ∧
      s.Ends m t r r' ((s.gap t payload).visit sc m r.desk r.report) (fun next? G ↦ next? = G.next?) result := by
  have hdelimiters : sc.toolkit.delimiters = t := congrArg Toolkit.delimiters htoolkit
  let p : Placeholder := ⟨s.mark.id, String.ofList (t.enclose payload), ahead? s.right s.below⟩
  have hp : s.Meets p := ⟨rfl, rfl⟩
  have htext : r.document.text? s.mark.id = some (String.ofList (t.enclose payload)) := by
    rw [hshows.text?_leaf (b := ⟨s.bid, s.left ++ s.mark :: s.right⟩) (by simp [Slot.page]) (by simp), hcontent]
  have hpayload : r.document.payload? t s.mark.id = t.payload? (t.enclose payload) := by
    rw [Document.payload?, htext, Option.bind_some, String.toList_ofList]
  have hstands := Slot.Stands.refl (t := t) hshows
  rw [visit, on_bind_ok (on_document r)]
  dsimp only
  rw [htext, hshows.nextAfter?_leaf, hdelimiters, hpayload, Option.getD_some]
  cases hpay : t.payload? (t.enclose payload) with
  | none =>
    refine ⟨_, r, rfl, .turned hstands.turns rfl fun ht ↦ ?_⟩
    simp [hread ht.toProper] at hpay
  | some payload' =>
    have henclose : t.enclose payload = t.enclose payload' := Delimiters.eq_enclose_of_payload? hpay
    have hsame : t.Visible → payload' = payload := fun ht ↦ by
      rw [hread ht.toProper] at hpay
      exact (Option.some.inj hpay).symm
    let r₀ : RunState := { r with log := .found s.mark.id p.marker :: r.log }
    have hidles : r.Idles r₀ := ⟨⟨⟨[_], rfl, by simp [Event.merges]⟩, .refl _, rfl⟩, rfl⟩
    dsimp only
    rw [on_bind_ok (on_log _ r), Gap.visit]
    cases hpieces : Payload.read payload' with
    | ok cs =>
      obtain ⟨result, r₁, hon, hends⟩ := dispatch_on (r := r₀) hp (hcontent.trans (by rw [henclose]))
        (congrArg String.ofList henclose) htoolkit hs hm cs hshows
      have hends := hends.of_idles hidles
      dsimp only
      cases hends with
      | @failed e hfailed =>
        refine ⟨.error e, r₁, on_bind_error hon, .failed fun ht x hx ↦ hfailed ht x ?_⟩
        obtain rfl := hsame ht
        rw [show Payload.read (s.gap t payload').payload = .ok cs from hpieces] at hx
        exact hx
      | @turned next? G hturns hgoes hexact =>
        obtain ⟨r₂, hresume, hidles₁, hdesk⟩ := resume_on hgoes
        obtain ⟨new, hlog, _⟩ := hidles₁.log
        refine ⟨.ok G.next?, r₂, (on_bind_ok hon).trans hresume, .turned (hturns.later hidles₁.document hidles₁.log) rfl
          fun ht ↦ ?_⟩
        obtain rfl := hsame ht
        rw [show Payload.read (s.gap t payload').payload = .ok cs from hpieces, hdesk, hidles₁.report]
        exact (hexact ht).imp_right (And.imp_right (·.later ⟨new, hlog⟩))
    | error e =>
      have hgap : (s.gap t payload).marker sc.toolkit.delimiters = p.marker := by rw [hdelimiters]; rfl
      dsimp only
      rw [on_bind_ok (on_countIgnored r₀)]
      rcases record_on sc p none (.payload e) { r₀ with report := r₀.report.addIgnored } with ⟨hfast, hon⟩ | ⟨hfast, hon⟩
      · refine ⟨_, _, on_bind_error hon, .failed fun ht x hx ↦ ?_⟩
        obtain rfl := hsame ht
        rw [show Payload.read (s.gap t payload').payload = .error e from hpieces] at hx
        rw [← Option.some.inj hx, Gap.record, if_pos hfast]
        rfl
      · refine ⟨_, _, on_bind_ok hon, .turned (hstands.turns.later rfl ⟨[_, _], rfl, by simp [Event.merges]⟩) rfl fun ht ↦ .inl ?_⟩
        obtain rfl := hsame ht
        rw [show Payload.read (s.gap t payload').payload = .error e from hpieces]
        dsimp only
        rw [Gap.record, if_neg (by simp [hfast]), hdelimiters, hstands.sheet hcontent ht]
        rfl

end Scanner

end Stencil
