import Stencil.Proofs.Command.Region
/-!
The commands that open blocks: what each comes to at a slot is what it comes to on the sheet.
-/

namespace Stencil

variable {t : Delimiters} {s s' : Slot} {r r' r₁ : RunState} {p : Placeholder} {c : Selection} {payload : List Char}

namespace Slot

/-- A step at a slot comes to something, and to what is expected of it on the sheet. -/
def Answers (t : Delimiters) (s : Slot) (p : Placeholder) (r : RunState) (x : Run Outcome)
    (expected? : Option (Except RunError Upshot × Desk)) : Prop :=
  ∃ result upshot? r', x.on r = (result, r') ∧ s.Comes t p r r' result upshot? ∧
    (t.Visible → ∀ a, expected? = some a → upshot? = some a.1 ∧ r'.desk = a.2)

theorem Answers.of_error {x : Run Outcome} {e : RunError} (hon : x.on r = (.error e, r'))
    (hstands : s.Stands t s' r r') (hdesk : r'.desk = r.desk) {upshot : Except RunError Upshot}
    (hupshot : t.Visible → upshot = .error e) : s.Answers t p r x (some (upshot, r.desk)) := by
  refine ⟨.error e, some (.error e), r', hon, .failed hstands, fun ht a ha ↦ ?_⟩
  rw [← Option.some.inj ha, hupshot ht]
  exact ⟨rfl, hdesk⟩

theorem Answers.of_reaches {x : Run Outcome} {next : Continuation} {G : Galley}
    (hon : x.on r = (.ok (.executed next), r')) (h : s.Reaches t p r r' next G) {upshot : Except RunError Upshot}
    (hupshot : t.Visible → upshot = .ok (.moved (G.sheet t))) : s.Answers t p r x (some (upshot, r.desk)) := by
  refine ⟨_, _, r', hon, h.comes, fun ht a ha ↦ ?_⟩
  rw [← Option.some.inj ha, hupshot ht]
  exact ⟨rfl, h.keeps.desk⟩

theorem Answers.bind_ofExcept {ε α : Type} (h : r.document.Shows s.page) (wrap : ε → RunError) (x : Except ε α)
    {k : α → Run Outcome} {f : α → Except RunError Upshot}
    (hk : ∀ a, x = .ok a → s.Answers t p r (k a) (some (f a, r.desk))) :
    s.Answers t p r (Run.ofExcept wrap x >>= k) (some (x.mapError wrap >>= f, r.desk)) := by
  cases hx : x with
  | error e => exact .of_error (Run.on_bind_error (Run.on_ofExcept_error wrap e r)) (.refl h) rfl fun _ ↦ rfl
  | ok a =>
    obtain ⟨result, upshot?, r', hon, hcomes, hexact⟩ := hk a hx
    exact ⟨result, upshot?, r', (Run.on_bind_ok (Run.on_ofExcept_ok wrap a r)).trans hon, hcomes, hexact⟩

/-- The search for the closing marker of a block, as the sheet has it: the block is not closed, or
what follows the search settles the matter. -/
theorem sought_on (h : r.document.Shows s.page) (hc : s.Hosts t c payload) (openers : List String) (closer : String)
    {k : NodeId → Run Outcome} {upshot : Reach → Except RunError Upshot} {whole : Except RunError Upshot}
    (hwhole : whole = (s.gap t payload).reach c.command r.desk openers closer >>= upshot)
    (hk : ∀ {r₁ closing reach}, r.Keeps r₁ → Sought t r.document r₁.document s.above s.bid (s.left ++ [s.mark]) s.right
      s.below (some closing) (some reach) → ∃ G next r', (k closing).on r₁ = (.ok (.executed next), r') ∧
        s.Reaches t p r r' next G ∧ (t.Visible → upshot reach = .ok (.moved (G.sheet t)))) :
    s.Answers t p r (c.areaEnd openers closer >>= k) (some (whole, r.desk)) := by
  obtain ⟨result, reach?, r₁, hon, hkeeps, hsought, hexact⟩ := c.areaEnd_on hc.toolkit hc.node h openers closer
  have hseek : t.Visible → Reach.seek? r.desk.aliases openers closer ⟨0, false⟩ (s.gap t payload).right
      (s.gap t payload).below = reach? := fun ht ↦ (hexact ht.toProper).symm
  cases result with
  | none =>
    cases hsought with
    | @nothing right' below' hshows hright hbelow =>
      have hstands : s.Stands t ⟨s.above, s.bid, s.left, s.mark, right', below'⟩ r r₁ :=
        ⟨hkeeps.toLeads, by simpa [page] using hshows, rfl, rfl, rfl, rfl, hright, hbelow⟩
      refine .of_error (Run.on_bind_error hon) hstands hkeeps.desk fun ht ↦ ?_
      rw [hwhole, Gap.reach, hseek ht]
      rfl
  | some closing =>
    cases reach? with
    | none => cases hsought
    | some reach =>
      obtain ⟨G, next, r', hk, hreaches, hsheet⟩ := hk hkeeps hsought
      refine .of_reaches ((Run.on_bind_ok hon).trans hk) hreaches fun ht ↦ ?_
      rw [hwhole, Gap.reach, hseek ht, ← hsheet ht]
      rfl

theorem Reaches.of_keeps {G : Galley} (hkeeps : r.Keeps r') (h : r'.document.Shows G.page)
    (honward : s.Onward r.document [] G) : s.Reaches t p r r' (.toward G.next?) G :=
  ⟨hkeeps, h, Galley.resumption h, honward⟩

theorem conditional_on (h : r.document.Shows s.page) (hp : s.Meets p) (hc : s.Hosts t c payload) :
    s.Answers t p r (Handler.conditional.execute c)
      (some ((s.gap t payload).conditional t c.command r.desk, r.desk)) := by
  refine Answers.bind_ofExcept h .condition (Condition.ofParams c.command.params) fun condition _ ↦ ?_
  refine sought_on h hc ["If"] "EndIf" rfl fun {r₁ closing reach} hkeeps hsought ↦ ?_
  have hmodel : r₁.model = r.desk.model := hkeeps.model
  rw [Run.on_bind_ok (Run.on_model r₁), hmodel]
  cases hholds : condition.holds (Condition.orderIn r.desk.model) with
  | true =>
    have hlogged : r.Keeps { r₁ with log := .evaluated true :: r₁.log } := hkeeps.trans (RunState.keeps_log rfl)
    obtain ⟨G, next, r', hon, hreaches, hsheet⟩ := opened_on h hlogged hp hsought hc.content
    refine ⟨G, next, r', ?_, hreaches, fun ht ↦ by rw [hsheet ht]; rfl⟩
    have htoolkit : c.toolkit.on { r₁ with log := .evaluated true :: r₁.log } =
        (.ok (.ofDelimiters t), { r₁ with log := .evaluated true :: r₁.log }) := by
      rw [Selection.toolkit, hc.toolkit, Run.on_pure]
    have hsplit : (do
        Run.edit fun d ↦ d.deletePlaceholder closing
        return Outcome.executed (← Selection.removePlaceholder c.node) : Run Outcome) = (do
          let next ← (do
            Run.edit fun d ↦ d.deletePlaceholder closing
            Selection.removePlaceholder c.node : Run Continuation)
          return .executed next) := by rw [bind_assoc]
    rw [Run.on_bind_ok (Run.on_log _ _), if_pos rfl, Run.on_bind_ok htoolkit, hsplit, hc.node, Run.on_bind_ok hon,
      Run.on_pure]
  | false =>
    have hlogged : r.Keeps { r₁ with log := .evaluated false :: r₁.log } := hkeeps.trans (RunState.keeps_log rfl)
    obtain ⟨G, r', hon, hkeeps', hshows, honward, hsheet⟩ := replicated_on payload hlogged hsought hc.content
      (show ∀ r, (pure (.ofDelimiters t) : Run Toolkit).on r = (.ok (.ofDelimiters t), r) from fun _ ↦ rfl) []
    refine ⟨G, _, r', ?_, .of_keeps hkeeps' hshows honward, fun _ ↦ by rw [hsheet]; rfl⟩
    have hsplit : (do
        let area ← Area.isolate c.node closing
        return Outcome.ofEdit (← area.delete none true) : Run Outcome) = (do
          let next? ← (do
            let area ← Area.isolate c.node closing
            area.replicate (pure (.ofDelimiters t)) [] : Run (Option Continuation))
          return .ofEdit next?) := by
      rw [bind_assoc]
      rfl
    rw [Run.on_bind_ok (Run.on_log _ _), if_neg Bool.false_ne_true, hsplit, hc.node, Run.on_bind_ok hon, Run.on_pure]
    rfl

theorem loop_on (h : r.document.Shows s.page) (hc : s.Hosts t c payload) :
    s.Answers t p r (Handler.loop.execute c) (some ((s.gap t payload).loop t c.command r.desk, r.desk)) := by
  rw [Gap.loop_eq]
  refine Answers.bind_ofExcept h id (c.command.source? "value") fun source? _ ↦ ?_
  cases source? with
  | none => exact .of_error (Run.on_throw _ r) (.refl h) rfl fun _ ↦ rfl
  | some source =>
    refine Answers.bind_ofExcept h .path (Scope.checkName ((c.str? "index").getD "index")) fun _ _ ↦ ?_
    refine Answers.bind_ofExcept h id (Handler.countElements (r.desk.model.value? source)) fun copies _ ↦ ?_
    refine Answers.bind_ofExcept h id (Handler.bindingOf r.desk.model.cursor (c.str? "$as" <|> c.str? "as") source) fun binding _ ↦ ?_
    let index := (c.str? "index").getD "index"
    refine sought_on h hc ["For"] "EndFor" rfl fun {r₁ closing reach} hkeeps hsought ↦ ?_
    have hlogged : r.Keeps { r₁ with log := .expanding copies index :: r₁.log } := hkeeps.trans (RunState.keeps_log rfl)
    have htoolkit : ∀ r, c.toolkit.on r = (.ok (.ofDelimiters t), r) := fun r ↦ by
      rw [Selection.toolkit, hc.toolkit, Run.on_pure]
    obtain ⟨G, r', hon, hkeeps', hshows, honward, hsheet⟩ := replicated_on payload hlogged hsought hc.content
      htoolkit ((List.range copies).map (binding.markers index))
    refine ⟨G, _, r', ?_, .of_keeps hkeeps' hshows honward, fun _ ↦ by rw [hsheet]; rfl⟩
    have hsplit : (do
        let area ← Area.isolate c.node closing
        return Outcome.ofEdit (← area.replicate c.toolkit ((List.range copies).map (binding.markers index))) :
          Run Outcome) = (do
          let next? ← (do
            let area ← Area.isolate c.node closing
            area.replicate c.toolkit ((List.range copies).map (binding.markers index)) : Run (Option Continuation))
          return .ofEdit next?) := by rw [bind_assoc]
    rw [Run.on_bind_ok (Run.on_log _ _)]
    exact hsplit ▸ ((Run.on_bind_ok (hc.node ▸ hon)).trans (Run.on_pure _ _))

theorem unclosed_on (payload : List Char) (hkeeps : r.Keeps r₁)
    (hsought : Sought t r.document r₁.document s.above s.bid (s.left ++ [s.mark]) s.right s.below none none) :
    ∃ (G : Galley) (r' : RunState), (do
        Run.log .ignoresToEnd
        Run.edit fun d ↦ d.deletePlaceholder s.mark.id
        return .executed .stop : Run Outcome).on r₁ = (.ok (.executed .stop), r') ∧
      s.Reaches t p r r' .stop G ∧ (t.Visible → G.sheet t = (s.gap t payload).skipped t none) := by
  cases hsought with
  | @nothing right' below' hshows hright hbelow =>
    let s' : Slot := ⟨s.above, s.bid, s.left, s.mark, right', below'⟩
    have hshows' : r₁.document.Shows s'.page := by simpa [page, s'] using hshows
    obtain ⟨e, he, h', hgrows, _⟩ := hshows'.deletePlaceholder
    let r₂ : RunState := { r₁ with log := .ignoresToEnd :: r₁.log }
    have hlogged : r.Keeps r₂ := hkeeps.trans (RunState.keeps_log rfl)
    have hpage : s'.removed.page = s.above ++ Paragraph.kept s.bid (s.left ++ right') ++ below' := page_removed s'
    refine ⟨.halted s'.removed.page, { r₂ with document := e }, ?_,
      ⟨hlogged.trans (RunState.keeps_document (r := r₂) hgrows), by rw [Galley.page, hpage]; exact h', rfl,
        .intro (by simp [Galley.ahead]) fun l hl ↦ ?_⟩, fun ht ↦ ?_⟩
    · have hedit : (Run.edit fun d ↦ d.deletePlaceholder s.mark.id).on r₂ = (.ok (), { r₂ with document := e }) :=
        Run.on_edit (r := r₂) he
      rw [Run.on_bind_ok (Run.on_log _ _), Run.on_bind_ok hedit, Run.on_pure]
    · rw [Galley.behind, hpage, List.flatMap_append, List.flatMap_append, List.append_assoc] at hl
      rcases List.mem_append.1 hl with hl | hl
      · exact .inl (List.mem_append_left _ hl)
      rcases List.mem_append.1 hl with hl | hl
      · rcases List.mem_append.1 (Paragraph.leaves_kept _ _ l hl) with hl | hl
        · exact .inl (List.mem_append_right _ hl)
        · exact .inr (.inr ((hright.ids _ (List.mem_map_of_mem hl)).imp_left (List.mem_append_left _)))
      · exact .inr (.inr ((hbelow.ids _ (Paragraph.mem_order_of_leaf hl)).imp_left (List.mem_append_right _)))
    · have hstands : s'.gap t payload = s.gap t payload := by
        rw [gap, gap, hright.pieces ht.toProper, hbelow.lines ht.toProper]
      rw [Gap.skipped, ← hstands, ← sheet_removed ht s' payload, Galley.lines_sheet, Galley.sheet]

theorem ignored_on (h : r.document.Shows s.page) (hp : s.Meets p) (hc : s.Hosts t c payload) :
    s.Answers t p r (Handler.ignored.execute c) (some (.ok ((s.gap t payload).ignored t r.desk), r.desk)) := by
  have htoolkit : c.toolkit.on r = (.ok (.ofDelimiters t), r) := by rw [Selection.toolkit, hc.toolkit, Run.on_pure]
  obtain ⟨result, reach?, r₁, hon, hkeeps, hsought, hexact⟩ := c.areaEnd_on hc.toolkit hc.node h [] "EndIgnore"
  have hend : (Handler.ignoredEnd? c).on r = (.ok result, r₁) := by
    rw [Handler.ignoredEnd?, Run.on_tryCatch, Run.on_bind, hon]
    cases result <;> rfl
  have hseek : t.Visible → (s.gap t payload).ignored t r.desk = .moved ((s.gap t payload).skipped t reach?) := fun ht ↦ by
    rw [Gap.ignored, hexact ht.toProper]
    rfl
  cases result with
  | none =>
    obtain rfl : reach? = none := by
      cases hsought
      rfl
    obtain ⟨G, r', hon', hreaches, hsheet⟩ := unclosed_on payload hkeeps hsought
    refine .of_reaches (((Run.on_bind_ok htoolkit).trans (Run.on_bind_ok hend)).trans ?_) hreaches
      fun ht ↦ by rw [hseek ht, hsheet ht]
    rw [hc.node]
    exact hon'
  | some closing =>
    obtain ⟨reach, rfl⟩ : ∃ reach, reach? = some reach := by cases hsought <;> exact ⟨_, rfl⟩
    obtain ⟨G, next, r', hon', hreaches, hsheet⟩ := skipped_on h hkeeps hp hsought hc.content
    refine .of_reaches (((Run.on_bind_ok htoolkit).trans (Run.on_bind_ok hend)).trans ?_) hreaches
      fun ht ↦ by rw [hseek ht, hsheet ht]
    have hsplit : (do
        let next ← Selection.removePlaceholder closing
        Run.edit fun d ↦ d.deletePlaceholder c.node
        return Outcome.executed next : Run Outcome) = (do
          let next ← (do
            let next ← Selection.removePlaceholder closing
            Run.edit fun d ↦ d.deletePlaceholder s.mark.id
            return next : Run Continuation)
          return .executed next) := by
      simp only [hc.node, bind_assoc, pure_bind]
    exact (congrArg (fun x : Run Outcome ↦ x.on r₁) hsplit).trans ((Run.on_bind_ok hon').trans (Run.on_pure _ _))

end Slot

end Stencil
