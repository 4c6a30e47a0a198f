import Stencil.Proofs.Run.Course
import Stencil.Proofs.Sheet.Balance
/-!
Scans beside each other. Two scans are likened by relations on what they work with. Where whatever comes of a
marker that both meet leaves them alike, and a marker that the first alone meets does so too, the second comes to
the end that the first comes to, up to the likeness.
-/

namespace Stencil

/-! ### Stretches swapped for others -/

section Stretches

variable {α β : Type} {a b : List α}

/-- Lists that differ only in that some stretches of the one are others in the other. -/
inductive Swaps (a b : List α) : List α → List α → Prop where
  | nil : Swaps a b [] []
  | same (x : α) {l l' : List α} : Swaps a b l l' → Swaps a b (x :: l) (x :: l')
  | here {l l' : List α} : Swaps a b l l' → Swaps a b (a ++ l) (b ++ l')

namespace Swaps

variable {l l' r r' : List α}

theorem refl (l : List α) : Swaps a b l l := by
  induction l with
  | nil => exact .nil
  | cons x l ih => exact .same x ih

theorem append (h : Swaps a b l l') (hr : Swaps a b r r') : Swaps a b (l ++ r) (l' ++ r') := by
  induction h with
  | nil => exact hr
  | same x _ ih => exact .same x ih
  | here _ ih =>
    rw [List.append_assoc, List.append_assoc]
    exact .here ih

theorem prepend (l : List α) (hr : Swaps a b r r') : Swaps a b (l ++ r) (l ++ r') := (refl l).append hr

theorem single : Swaps a b a b := by simpa using here (a := a) (b := b) .nil

theorem flatMap {c d : List β} {f : α → List β} (h : Swaps a b l l') (hf : Swaps c d (a.flatMap f) (b.flatMap f)) :
    Swaps c d (l.flatMap f) (l'.flatMap f) := by
  induction h with
  | nil => exact .nil
  | same x _ ih => exact .prepend (f x) ih
  | here _ ih =>
    rw [List.flatMap_append, List.flatMap_append]
    exact hf.append ih

theorem map (f : α → β) (h : Swaps a b l l') : Swaps (a.map f) (b.map f) (l.map f) (l'.map f) := by
  rw [List.map_eq_flatMap, List.map_eq_flatMap, List.map_eq_flatMap, List.map_eq_flatMap]
  exact h.flatMap single

theorem flatMap_of {f f' : β → List α} (h : ∀ y, Swaps a b (f y) (f' y)) (ys : List β) : Swaps a b (ys.flatMap f) (ys.flatMap f') := by
  induction ys with
  | nil => exact .nil
  | cons y ys ih => exact (h y).append ih

theorem all_eq {f : α → Bool} (h : Swaps a b l l') (hf : a.all f = b.all f) : l.all f = l'.all f := by
  induction h with
  | nil => rfl
  | same x _ ih => rw [List.all_cons, List.all_cons, ih]
  | here _ ih => rw [List.all_append, List.all_append, hf, ih]

theorem isEmpty_eq (h : Swaps a b l l') (ha : a ≠ []) (hb : b ≠ []) : l.isEmpty = l'.isEmpty := by
  cases h with
  | nil => rfl
  | same => rfl
  | here =>
    rw [List.isEmpty_eq_false_iff.2 (List.append_ne_nil_of_left_ne_nil ha _), List.isEmpty_eq_false_iff.2 (List.append_ne_nil_of_left_ne_nil hb _)]

end Swaps

end Stretches

/-! ### Likenesses -/

theorem rel_map {α β : Type} {R : α → α → Prop} {S : β → β → Prop} {f g : α → β} (hfg : ∀ a b, R a b → S (f a) (g b))
    {a? b? : Option α} (h : Option.Rel R a? b?) : Option.Rel S (a?.map f) (b?.map g) := by
  cases h with
  | none => exact .none
  | some hab => exact .some (hfg _ _ hab)

/-- Relations between what two scans work with, and between the lines that they end with. -/
structure Likeness where
  sheets : Sheet → Sheet → Prop
  gaps : Gap → Gap → Prop
  reaches : Reach → Reach → Prop
  desks : Desk → Desk → Prop
  reports : Report → Report → Prop
  lines : List String → List String → Prop

namespace Likeness

variable (L : Likeness)

structure Drafts (D D' : Draft) : Prop where
  sheet : L.sheets D.sheet D'.sheet
  desk : L.desks D.desk D'.desk
  report : L.reports D.report D'.report

inductive Upshots : Upshot → Upshot → Prop where
  | ignored : Upshots .ignored .ignored
  | consumed : Upshots .consumed .consumed
  | moved {S S' : Sheet} : L.sheets S S' → Upshots (.moved S) (.moved S')

inductive Answers : Except RunError Upshot → Except RunError Upshot → Prop where
  | error (e : RunError) : Answers (.error e) (.error e)
  | ok {u u' : Upshot} : L.Upshots u u' → Answers (.ok u) (.ok u')

/-- The marker that comes next: there is none, or both meet one, or the first meets one by itself, which leaves it
where the second is already. -/
inductive Meets (s : Scanner) (m : Manual) (D D' : Draft) : Prop where
  | nothing : D.sheet.find? s.toolkit.delimiters = none → D'.sheet.find? s.toolkit.delimiters = none →
      L.lines (D.sheet.lines s.toolkit.delimiters) (D'.sheet.lines s.toolkit.delimiters) → Meets s m D D'
  | marker {g g' : Gap} : D.sheet.find? s.toolkit.delimiters = some g → D'.sheet.find? s.toolkit.delimiters = some g' →
      L.gaps g g' → Meets s m D D'
  | alone {g : Gap} : D.sheet.find? s.toolkit.delimiters = some g →
      (∀ D₁, g.visit s m D.desk D.report = some (.ok D₁) →
        ∃ D₂ D₂', D₁.Alike s.toolkit.delimiters D₂ ∧ D'.Alike s.toolkit.delimiters D₂' ∧ L.Drafts D₂ D₂') → Meets s m D D'

variable {L} in
theorem Meets.of_alike {s : Scanner} {m : Manual} {D D' D₁ D₁' : Draft} (h : L.Meets s m D₁ D₁') (hD : D.Alike s.toolkit.delimiters D₁)
    (hD' : D'.Alike s.toolkit.delimiters D₁') : L.Meets s m D D' := by
  cases h with
  | nothing hnone hnone' hlines =>
    exact .nothing (hD.find.trans hnone) (hD'.find.trans hnone') (by rwa [hD.lines, hD'.lines])
  | marker hg hg' hgaps => exact .marker (hD.find.trans hg) (hD'.find.trans hg') hgaps
  | alone hg hturn =>
    refine .alone (hD.find.trans hg) fun E hvisit ↦ ?_
    rw [hD.desk, hD.report] at hvisit
    obtain ⟨D₂, D₂', halike, halike', hdrafts⟩ := hturn E hvisit
    exact ⟨D₂, D₂', halike, hD'.trans halike', hdrafts⟩

/-- A likeness that outlasts a turn at a marker that both scans meet. -/
structure Agrees (s : Scanner) (m : Manual) (as : Aliases) : Prop where
  payload {g g' : Gap} : L.gaps g g' → g.payload = g'.payload
  passed {g g' : Gap} : L.gaps g g' → ∀ c, L.sheets (g.passed c) (g'.passed c)
  removed {g g' : Gap} : L.gaps g g' → L.sheets (g.removed s.toolkit.delimiters) (g'.removed s.toolkit.delimiters)
  merged {g g' : Gap} : L.gaps g g' → ∀ ls, L.sheets (g.merged s.toolkit.delimiters ls) (g'.merged s.toolkit.delimiters ls)
  opened {g g' : Gap} {R R' : Reach} : L.gaps g g' → L.reaches R R' →
    L.sheets (g.opened s.toolkit.delimiters R) (g'.opened s.toolkit.delimiters R')
  replicated {g g' : Gap} {R R' : Reach} : L.gaps g g' → L.reaches R R' → ∀ markers, L.sheets (g.replicated markers R) (g'.replicated markers R')
  skipped {g g' : Gap} {c : Command} : L.gaps g g' → as.Says g.payload c → c.name = "Ignore" → "Ignore" ∉ m.omits →
    L.sheets (g.skipped s.toolkit.delimiters (Reach.seek? as [] "EndIgnore" ⟨0, false⟩ g.right g.below))
      (g'.skipped s.toolkit.delimiters (Reach.seek? as [] "EndIgnore" ⟨0, false⟩ g'.right g'.below))
  sought {g g' : Gap} {c : Command} {closer : String} : L.gaps g g' → as.Says g.payload c → Reach.Pairs [c.name] closer →
    Option.Rel L.reaches (Reach.seek? as [c.name] closer ⟨0, false⟩ g.right g.below)
      (Reach.seek? as [c.name] closer ⟨0, false⟩ g'.right g'.below)
  model {k k' : Desk} : L.desks k k' → k.model = k'.model
  aliases {k k' : Desk} : L.desks k k' → k.aliases = as ∧ k'.aliases = as
  told {k k' : Desk} : L.desks k k' → ∀ c : Command, c.name ∉ m.omits →
    (m.tells c k).1 = (m.tells c k').1 ∧ L.desks (m.tells c k).2 (m.tells c k').2
  executed {r r' : Report} : L.reports r r' → L.reports r.addExecuted r'.addExecuted
  ignored {r r' : Report} : L.reports r r' → L.reports r.addIgnored r'.addIgnored
  found {r r' : Report} : L.reports r r' → ∀ f, L.reports { r with findings := r.findings ++ [f] } { r' with findings := r'.findings ++ [f] }

/-- A likeness that outlasts a scan. -/
structure Lasts (s : Scanner) (m : Manual) (as : Aliases) : Prop extends L.Agrees s m as where
  meets {D D' : Draft} : L.Drafts D D' → L.Meets s m D D'

variable {L : Likeness} {s : Scanner} {m : Manual} {as : Aliases}

namespace Agrees

variable (h : L.Agrees s m as) {g g' : Gap} {k k' : Desk} {r r' : Report} {c : Command}

include h

theorem kept (hg : L.gaps g g') : L.sheets (g.kept s.toolkit.delimiters) (g'.kept s.toolkit.delimiters) := by
  rw [Gap.kept, Gap.kept, Gap.marker, Gap.marker, ← h.payload hg]
  exact h.passed hg _

theorem perform (hg : L.gaps g g') (deed : Deed) : L.Upshots (g.perform s.toolkit.delimiters deed) (g'.perform s.toolkit.delimiters deed) := by
  cases deed with
  | leave => exact .ignored
  | consume => exact .consumed
  | write text => exact .moved (h.passed hg _)
  | remove => exact .moved (h.removed hg)
  | insert image => exact .moved (h.passed hg _)
  | merge text bounds => exact .moved (h.merged hg _)

theorem reach (hg : L.gaps g g') (hk : L.desks k k') (hsaid : as.Says g.payload c) {closer : String}
    (hpairs : Reach.Pairs [c.name] closer) {f f' : Reach → Except RunError Upshot} (hf : ∀ R R', L.reaches R R' → L.Answers (f R) (f' R')) :
    L.Answers (g.reach c k [c.name] closer >>= f) (g'.reach c k' [c.name] closer >>= f') := by
  have hsought := h.sought hg hsaid hpairs
  obtain ⟨haliases, haliases'⟩ := h.aliases hk
  rw [Gap.reach, Gap.reach, haliases, haliases']
  generalize Reach.seek? as [c.name] closer ⟨0, false⟩ g.right g.below = R? at hsought ⊢
  generalize Reach.seek? as [c.name] closer ⟨0, false⟩ g'.right g'.below = R'? at hsought ⊢
  cases hsought with
  | none => exact .error _
  | some hR => exact hf _ _ hR

theorem conditional (hg : L.gaps g g') (hk : L.desks k k') (hsaid : as.Says g.payload c) (hname : c.name = "If") :
    L.Answers (g.conditional s.toolkit.delimiters c k) (g'.conditional s.toolkit.delimiters c k') := by
  rw [Gap.conditional, Gap.conditional, ← h.model hk]
  cases (Condition.ofParams c.params).mapError RunError.condition with
  | error e => exact .error e
  | ok condition =>
    dsimp only [bind, Except.bind]
    rw [← hname]
    refine h.reach hg hk hsaid (hname ▸ .conditions) fun R R' hR ↦ .ok (.moved ?_)
    split
    · exact h.opened hg hR
    · exact h.replicated hg hR []

theorem loop (hg : L.gaps g g') (hk : L.desks k k') (hsaid : as.Says g.payload c) (hname : c.name = "For") :
    L.Answers (g.loop s.toolkit.delimiters c k) (g'.loop s.toolkit.delimiters c k') := by
  have hmarkers : Gap.loopMarkers c k = Gap.loopMarkers c k' := by rw [Gap.loopMarkers, Gap.loopMarkers, h.model hk]
  rw [Gap.loop, Gap.loop, ← hmarkers]
  cases Gap.loopMarkers c k with
  | error e => exact .error e
  | ok markers =>
    dsimp only [bind, Except.bind]
    rw [← hname]
    exact h.reach hg hk hsaid (hname ▸ .loops) fun R R' hR ↦ .ok (.moved (h.replicated hg hR _))

/-! ### A marker that both meet -/

theorem answer (hg : L.gaps g g') (hk : L.desks k k') (hsaid : as.Says g.payload c) {x : Except RunError Upshot} {k₁ : Desk}
    (ha : g.answer m s.toolkit.delimiters c k = some (x, k₁)) :
    ∃ x' k₁', g'.answer m s.toolkit.delimiters c k' = some (x', k₁') ∧ L.Answers x x' ∧ L.desks k₁ k₁' := by
  rw [Gap.answer] at ha
  rw [Gap.answer]
  by_cases homit : c.name ∈ m.omits
  · rw [if_pos homit] at ha
    cases ha
  rw [if_neg homit] at ha ⊢
  by_cases hif : c.name = "If"
  · rw [if_pos hif] at ha ⊢
    cases ha
    exact ⟨_, _, rfl, h.conditional hg hk hsaid hif, hk⟩
  rw [if_neg hif] at ha ⊢
  by_cases hfor : c.name = "For"
  · rw [if_pos hfor] at ha ⊢
    cases ha
    exact ⟨_, _, rfl, h.loop hg hk hsaid hfor, hk⟩
  rw [if_neg hfor] at ha ⊢
  by_cases hignore : c.name = "Ignore"
  · rw [if_pos hignore] at ha ⊢
    cases ha
    obtain ⟨haliases, haliases'⟩ := h.aliases hk
    refine ⟨_, _, rfl, .ok ?_, hk⟩
    rw [Gap.ignored, Gap.ignored, haliases, haliases']
    exact .moved (h.skipped hg hsaid hignore (hignore ▸ homit))
  rw [if_neg hignore] at ha ⊢
  cases ha
  obtain ⟨hresult, hdesk⟩ := h.told hk c homit
  refine ⟨_, _, rfl, ?_, hdesk⟩
  rw [← hresult]
  cases (m.tells c k).1 with
  | error e => exact .error e
  | ok deed => exact .ok (h.perform hg deed)

theorem record (hg : L.gaps g g') (hr : L.reports r r') (name? : Option String) (e : RunError) {r₁ : Report}
    (hrecord : g.record s name? e r = .ok r₁) : ∃ r₁', g'.record s name? e r' = .ok r₁' ∧ L.reports r₁ r₁' := by
  have hmarker : g.marker s.toolkit.delimiters = g'.marker s.toolkit.delimiters := by rw [Gap.marker, Gap.marker, h.payload hg]
  rw [Gap.record] at hrecord ⊢
  split at hrecord
  · cases hrecord
  · next hfast =>
    obtain rfl := Except.ok.inj hrecord
    rw [if_neg hfast, ← hmarker]
    exact ⟨_, rfl, h.found hr _⟩

theorem noted (hg : L.gaps g g') (hk : L.desks k k') (hr : L.reports r r') (name? : Option String) (e : RunError) {S S' : Sheet}
    (hS : L.sheets S S') {D : Draft} (hnoted : some ((g.record s name? e r).map fun r ↦ (⟨S, k, r⟩ : Draft)) = some (.ok D)) :
    ∃ D', some ((g'.record s name? e r').map fun r ↦ (⟨S', k', r⟩ : Draft)) = some (.ok D') ∧ L.Drafts D D' := by
  obtain ⟨r₁, hrecord, rfl⟩ := except_map_eq_ok.1 (Option.some.inj hnoted)
  obtain ⟨r₁', hrecord', hr₁⟩ := h.record hg hr name? e hrecord
  rw [hrecord']
  exact ⟨_, rfl, hS, hk, hr₁⟩

theorem carryOut (hg : L.gaps g g') (hk : L.desks k k') (hr : L.reports r r') (cs : Commands) (hcs : ∀ c ∈ cs, as.Says g.payload c) {D : Draft}
    (hcarry : g.carryOut s m cs k r = some (.ok D)) : ∃ D', g'.carryOut s m cs k' r' = some (.ok D') ∧ L.Drafts D D' := by
  induction cs generalizing k k' with
  | nil =>
    rw [Gap.carryOut] at hcarry ⊢
    cases hcarry
    exact ⟨_, rfl, h.kept hg, hk, hr⟩
  | cons c rest ih =>
    rw [List.forall_mem_cons] at hcs
    rw [Gap.carryOut] at hcarry ⊢
    cases hget : s.registry.get? c.name with
    | none =>
      rw [hget] at hcarry
      cases hcarry
    | some handler =>
      rw [hget] at hcarry
      dsimp only at hcarry ⊢
      cases ha : g.answer m s.toolkit.delimiters c k with
      | none =>
        rw [ha] at hcarry
        cases hcarry
      | some a =>
        obtain ⟨x, k₁⟩ := a
        obtain ⟨x', k₁', ha', hanswers, hk₁⟩ := h.answer hg hk hcs.1 ha
        rw [ha] at hcarry
        rw [ha']
        cases hanswers with
        | error e => exact h.noted hg hk₁ hr (some c.name) e (h.kept hg) hcarry
        | ok hu =>
          cases hu with
          | ignored =>
            cases hcarry
            exact ⟨_, rfl, h.kept hg, hk₁, h.ignored hr⟩
          | consumed =>
            dsimp only at hcarry ⊢
            cases hrest : rest.isEmpty with
            | true =>
              rw [hrest] at hcarry
              cases hcarry
              exact ⟨_, rfl, h.removed hg, hk₁, h.executed hr⟩
            | false =>
              rw [hrest] at hcarry
              exact ih hk₁ hcs.2 hcarry
          | moved hS =>
            dsimp only at hcarry ⊢
            cases hrest : rest.isEmpty with
            | true =>
              rw [hrest] at hcarry
              cases hcarry
              exact ⟨_, rfl, hS, hk₁, h.executed hr⟩
            | false =>
              rw [hrest] at hcarry
              exact h.noted hg hk₁ (h.executed hr) (some c.name) _ hS hcarry

theorem dispatch (hg : L.gaps g g') (hk : L.desks k k') (hr : L.reports r r') {cs : Commands} (hread : Payload.read g.payload = .ok cs) {D : Draft}
    (hdispatch : g.dispatch s m cs k r = some (.ok D)) : ∃ D', g'.dispatch s m cs k' r' = some (.ok D') ∧ L.Drafts D D' := by
  obtain ⟨haliases, haliases'⟩ := h.aliases hk
  rw [Gap.dispatch, haliases] at hdispatch
  rw [Gap.dispatch, haliases']
  cases hfind : (cs.map as.expand).find? fun c ↦ !s.registry.has c.name with
  | none =>
    rw [hfind] at hdispatch
    exact h.carryOut hg hk hr _ (fun c hc ↦ ⟨cs, hread, hc⟩) hdispatch
  | some c =>
    rw [hfind] at hdispatch
    dsimp only at hdispatch ⊢
    cases hpolicy : s.settings.unknownCommand with
    | fail =>
      rw [hpolicy] at hdispatch
      cases hdispatch
    | ignore =>
      rw [hpolicy] at hdispatch
      cases hdispatch
      exact ⟨_, rfl, h.kept hg, hk, h.ignored hr⟩

theorem visit (hg : L.gaps g g') (hk : L.desks k k') (hr : L.reports r r') {D : Draft} (hvisit : g.visit s m k r = some (.ok D)) :
    ∃ D', g'.visit s m k' r' = some (.ok D') ∧ L.Drafts D D' := by
  rw [Gap.visit] at hvisit ⊢
  rw [← h.payload hg]
  cases hread : Payload.read g.payload with
  | ok cs =>
    rw [hread] at hvisit
    exact h.dispatch hg hk hr hread hvisit
  | error e =>
    rw [hread] at hvisit
    exact h.noted hg hk (h.ignored hr) none (.payload e) (h.kept hg) hvisit

end Agrees

/-! ### Scans -/

namespace Lasts

variable (h : L.Lasts s m as)

include h

/-- Where the first scan comes to its end, so does the second, and it meets no more markers. -/
theorem scan : ∀ (n : ℕ) {D D' E : Draft}, L.Drafts D D' → Draft.scan s m n D = some (.ok E) → ∃ n' ≤ n, ∃ E',
    Draft.scan s m n' D' = some (.ok E') ∧ L.lines (E.sheet.lines s.toolkit.delimiters) (E'.sheet.lines s.toolkit.delimiters) ∧
      L.desks E.desk E'.desk ∧ L.reports E.report E'.report := by
  intro n
  induction n with
  | zero =>
    intro D D' E hdrafts hscan
    cases h.meets hdrafts with
    | nothing hnone hnone' hlines =>
      rw [Draft.scan_done hnone] at hscan
      cases hscan
      exact ⟨0, le_rfl, _, Draft.scan_done hnone' 0, hlines, hdrafts.desk, hdrafts.report⟩
    | marker hg _ _ =>
      rw [Draft.scan_zero hg] at hscan
      cases hscan
    | alone hg _ =>
      rw [Draft.scan_zero hg] at hscan
      cases hscan
  | succ n ih =>
    intro D D' E hdrafts hscan
    cases h.meets hdrafts with
    | nothing hnone hnone' hlines =>
      rw [Draft.scan_done hnone] at hscan
      cases hscan
      exact ⟨0, Nat.zero_le _, _, Draft.scan_done hnone' 0, hlines, hdrafts.desk, hdrafts.report⟩
    | @marker g g' hg hg' hgaps =>
      rw [Draft.scan_succ hg] at hscan
      rcases hvisit : g.visit s m D.desk D.report with _ | ⟨e | D₁⟩ <;> rw [hvisit] at hscan
      · cases hscan
      · cases hscan
      · obtain ⟨D₁', hvisit', hdrafts₁⟩ := h.visit hgaps hdrafts.desk hdrafts.report hvisit
        obtain ⟨n', hn', E', hscan', hend⟩ := ih hdrafts₁ hscan
        exact ⟨n' + 1, by omega, E', (Draft.scan_visit hg' hvisit' n').trans hscan', hend⟩
    | @alone g hg hturn =>
      rw [Draft.scan_succ hg] at hscan
      rcases hvisit : g.visit s m D.desk D.report with _ | ⟨e | D₁⟩ <;> rw [hvisit] at hscan
      · cases hscan
      · cases hscan
      · -- the second scan has no turn to take: it is as good as where the first comes to
        obtain ⟨D₂, D₂', halike, halike', hdrafts₂⟩ := hturn D₁ hvisit
        obtain ⟨n', hn', E', hscan', hend⟩ := ih hdrafts₂ ((halike.scan n).symm.trans hscan)
        exact ⟨n', by omega, E', (halike'.scan n').trans hscan', hend⟩

omit h in
theorem renderText {R : Renderer} (hlasts : L.Lasts (R.scanner (.ofDelimiters R.settings.delimiters)) m as) (hregistry : R.registry = .builtin)
    (ht : R.settings.delimiters.Visible) (hm : (R.scanner (.ofDelimiters R.settings.delimiters)).Follows m) {w : Workshop} {host host' : String}
    {M : Model} (hdrafts : L.Drafts (R.draft w host M) (R.draft w host' M)) {report : Report} (hok : (R.renderText w host M).result = .ok report)
    (hstrays : ¬ m.Strays (R.renderText w host M).state.log) : ∃ report' ls ls', (R.renderText w host' M).result = .ok report' ∧
      L.reports report report' ∧ L.desks (R.renderText w host M).state.desk (R.renderText w host' M).state.desk ∧
      (R.renderText w host M).text = "\n".intercalate ls ∧ (R.renderText w host' M).text = "\n".intercalate ls' ∧ L.lines ls ls' := by
  rcases R.renderText_scan hregistry ht hm w host M with ⟨x, hscan, hresult, hend⟩ | ⟨_, hstray⟩
  · rw [hok] at hresult
    cases x with
    | error e => cases hresult
    | ok E =>
      obtain rfl := Except.ok.inj hresult
      obtain ⟨htext, hdesk⟩ := hend E rfl
      obtain ⟨n, hn, E', hscan', hlines, hdesks, hreports⟩ := hlasts.scan _ hdrafts hscan
      obtain ⟨hresult', hend'⟩ := R.renderText_on hregistry ht hm w host' M (Draft.scan_le hscan' (fun h ↦ by cases h) hn)
      obtain ⟨htext', hdesk'⟩ := hend' E' rfl
      rw [hdesk, hdesk']
      exact ⟨E'.report, _, _, hresult', hreports, hdesks, congrArg ("\n".intercalate ·) htext, htext', hlines⟩
  · exact absurd (hstray _ hok) hstrays

end Lasts

end Likeness

end Stencil
