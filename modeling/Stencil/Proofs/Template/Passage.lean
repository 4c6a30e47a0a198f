import Stencil.Proofs.Command.Binding
import Stencil.Proofs.Command.Loop
import Stencil.Proofs.Payload.Reading
import Stencil.Proofs.Run.Course
import Stencil.Proofs.Sheet.Scan
import Stencil.Proofs.Template.Basic
/-!
The scan of a structured template. It edits the sheet that it walks: it takes the markers of conditions
away, and puts copies of bodies between markers of its own in the place of loops. Each of these edits
leaves lines that the scan comes to next, so that by induction on the template it comes out behind them
with the lines of the evaluation before it, and the template is rendered as it is evaluated.
-/

namespace Stencil

variable {s : Scanner} {m : Manual} {k k' k'' : Desk} {a b c : Sheet} {i j : ℕ} {M : Model}

/-! ### Stretches of a scan -/

/-- A scan comes from one place of a sheet to another, past so many markers or more, and nothing is noted
on the way. -/
def Sheet.Clears (s : Scanner) (m : Manual) (i : ℕ) (a : Sheet) (k : Desk) (b : Sheet) (k' : Desk) : Prop :=
  ∀ report : Report, ∃ report', report'.findings = report.findings ∧
    Draft.Passes s m i ⟨a, k, report⟩ ⟨b, k', report'⟩

namespace Sheet.Clears

theorem refl (a : Sheet) (k : Desk) : Clears s m 0 a k a k := fun report ↦ ⟨report, rfl, .refl _⟩

theorem of_alike (h : ∀ report, Draft.Alike s.toolkit.delimiters ⟨a, k, report⟩ ⟨b, k, report⟩) : Clears s m 0 a k b k :=
  fun report ↦ ⟨report, rfl, .of_alike (h report)⟩

theorem trans (h : Clears s m i a k b k') (l : Clears s m j b k' c k'') : Clears s m (i + j) a k c k'' :=
  fun report ↦ by
    obtain ⟨report₁, hfindings, hpasses⟩ := h report
    obtain ⟨report₂, hfindings₂, hpasses₂⟩ := l report₁
    exact ⟨report₂, hfindings₂.trans hfindings, hpasses.trans hpasses₂⟩

theorem mono (h : Clears s m i a k b k') (hj : j ≤ i) : Clears s m j a k b k' := fun report ↦ by
  obtain ⟨report', hfindings, hpasses⟩ := h report
  exact ⟨report', hfindings, hpasses.mono hj⟩

theorem of_long (h : Clears s m i a k b k') (hi : s.settings.maxSteps < i) : Clears s m j a k c k'' := fun report ↦ by
  obtain ⟨_, _, hpasses⟩ := h report
  exact ⟨report, rfl, hpasses.of_long hi⟩

end Sheet.Clears

/-! ### Turns -/

namespace Gap

variable {g : Gap} {h : Handler} {sheet : Sheet} {cmd : Command} {r : Report}

theorem clears_moved (hread : Payload.read g.payload = .ok [cmd]) (haliases : k.aliases = [])
    (hget : s.registry.get? cmd.name = some h)
    (hanswer : g.answer m s.toolkit.delimiters cmd k = some (.ok (.moved sheet), k))
    (hfind : a.find? s.toolkit.delimiters = some g) : a.Clears s m 1 k sheet k := fun report ↦
  ⟨report.addExecuted, rfl, .of_visit hfind (g.visit_moved s m hread (haliases ▸ rfl) hget hanswer)⟩

/-- A command that changes the model and leaves the marker to be removed. -/
structure Consumes (s : Scanner) (m : Manual) (cmd : Command) (k : Desk) (M' : Model) : Prop where
  known : s.registry.has cmd.name = true
  onSheet : cmd.name ∉ m.omits
  blockless : cmd.name ∉ Manual.openers
  told : m.tells cmd k = (.ok .consume, { k with model := M' })

theorem Consumes.answer {t : Delimiters} {M' : Model} (h : Consumes s m cmd k M') :
    g.answer m t cmd k = some (.ok .consumed, { k with model := M' }) := by
  have hblockless := h.blockless
  simp only [Manual.openers, List.mem_cons, List.not_mem_nil, or_false, not_or] at hblockless
  rw [Gap.answer, if_neg h.onSheet, if_neg hblockless.1, if_neg hblockless.2.1, if_neg hblockless.2.2, h.told]
  rfl

/-- A turn at a marker of two commands that each leave it to be removed, alone in its line. -/
theorem clears_consumed {above : List String} {p : List Char} {below : List Line} {c₁ c₂ : Command} {M₁ M₂ : Model}
    (hread : Payload.read p = .ok [c₁, c₂]) (haliases : k.aliases = []) (h₁ : Consumes s m c₁ k M₁)
    (h₂ : Consumes s m c₂ { k with model := M₁ } M₂) :
    (Sheet.between above ([.marker p] :: below)).Clears s m 1 k (.between above below) { k with model := M₂ } := fun report ↦ by
  let g : Gap := ⟨above, [], p, [], below⟩
  refine ⟨report.addExecuted, rfl, .of_visit (g := g) rfl ?_⟩
  have hknown : ∀ c ∈ [c₁, c₂], s.registry.has c.name = true := by simp [h₁.known, h₂.known]
  obtain ⟨_, hget₁⟩ := Option.isSome_iff_exists.1 h₁.known
  obtain ⟨_, hget₂⟩ := Option.isSome_iff_exists.1 h₂.known
  change g.visit s m k report = _
  rw [visit_read s m g hread, dispatch_known s m g (haliases ▸ rfl) hknown, carryOut]
  simp only [hget₁, h₁.answer, List.isEmpty_cons, carryOut, hget₂, h₂.answer, List.isEmpty_nil, if_true,
    Bool.false_eq_true, if_false]
  rfl

end Gap

/-! ### Lines of text -/

namespace Command

theorem written_of_insertion {cmd : Command} {source : Source} {text : String} (h : cmd.isInsertion = true)
    (hsource : cmd.source? "value" = .ok (some source)) (hshown : Datum.shown? (k.model.value? source) = some text) :
    cmd.written k = .ok (.write text) := by
  obtain ⟨_, key, path, hkey, hparams⟩ := isInsertion_iff.1 h
  have hmissing : cmd.missing = .ok (.write "") := by
    have hpolicy : MissingPolicy.ofCommand cmd = .ok .empty := by
      rcases hkey with rfl | rfl <;>
        simp [MissingPolicy.ofCommand, Command.str?, Command.has, Command.param?, hparams, Entries.get?, Entries.has]
    rw [missing, hpolicy]
    rfl
  have hvalue : cmd.valueIn k.model = .ok (k.model.value? source) := by rw [valueIn, hsource]; rfl
  rw [Command.written, hvalue]
  rcases hv : k.model.value? source with _ | ⟨_ | _ | _ | _ | _⟩ | _ | _ <;> rw [hv] at hshown <;> cases hshown
  all_goals first
    | exact hmissing
    | rfl

end Command

section Rendering

variable (hs : s.registry = .builtin) (htoolkit : s.toolkit = .ofDelimiters .default) (hm : s.Reads m)

namespace TextLine

include hs htoolkit hm

theorem clears_rest (haliases : k.aliases = []) (above : List String) (below : List Line) :
    ∀ (right : Line) (left : List Content) (texts : List String),
    (∀ q ∈ right, q.isInline = true) →
    right.mapM (Piece.eval k.model) = some texts →
    (Sheet.within above left right below).Clears s m 0 k
      (.between (above ++ [Content.line left ++ String.join texts]) below) k := by
  have hdelimiters : s.toolkit.delimiters = .default := congrArg Toolkit.delimiters htoolkit
  intro right
  induction right with
  | nil =>
    intro left texts _ htexts
    obtain rfl : texts = [] := by simpa using htexts.symm
    have hend : Content.line left ++ String.join [] = Content.line left := String.append_empty
    rw [hend]
    exact .of_alike fun _ ↦ Draft.alike_leave above left below
  | cons q right ih =>
    intro left texts hins htexts
    have hins' : ∀ q ∈ right, q.isInline = true := fun q hq ↦ hins q (List.mem_cons_of_mem _ hq)
    rw [List.mapM_cons] at htexts
    obtain ⟨text, htext, htexts⟩ := Option.bind_eq_some_iff.1 htexts
    obtain ⟨texts', htexts', htexts⟩ := Option.bind_eq_some_iff.1 htexts
    obtain rfl : text :: texts' = texts := Option.some.inj htexts
    have hjoin : ∀ c : Content, c.shown = text → Content.line (left ++ [c]) ++ String.join texts' =
        Content.line left ++ String.join (text :: texts') := fun c hc ↦ by
      rw [Content.line_append, String.join_cons, ← hc, String.append_assoc]
      congr 2
    cases q with
    | words w =>
      have hgo := ih (left ++ [.text (String.ofList w)]) texts' hins' htexts'
      rw [hjoin (.text (String.ofList w)) (Option.some.inj htext)] at hgo
      have hstart : (Sheet.within above left (.words w :: right) below).Clears s m 0 k
          (.within above (left ++ [.text (String.ofList w)]) right below) k :=
        .of_alike fun _ ↦ Draft.alike_pass rfl above left right below
      exact hstart.trans hgo
    | image attrs => cases htext
    | marker p =>
      obtain ⟨cmd, hread, hinserts⟩ := Piece.inserts_of_isInline (hins _ (List.mem_cons_self ..))
      have hname : cmd.name = "String" := (Command.isInsertion_iff.1 hinserts).1
      have hget : s.registry.get? cmd.name = some Handler.insertion := by rw [hs, hname]; rfl
      have hwritten : cmd.written k = .ok (.write text) := by
        rw [Piece.eval, Payload.single?_eq_some.2 hread, Option.bind_some] at htext
        split at htext
        · next source hsource => exact Command.written_of_insertion hinserts hsource htext
        · cases htext
      have hturn : (Sheet.within above left (.marker p :: right) below).Clears s m 1 k
          (.within above (left ++ [.text text]) right below) k := by
        refine Gap.clears_moved (g := ⟨above, left, p, right, below⟩) hread haliases hget ?_ (by simp [Sheet.find?, Piece.breakMarker?])
        simp only [Gap.answer, hname, hm.omits, hm.insertion cmd hname, hwritten]
        rfl
      have hgo := ih (left ++ [.text text]) texts' hins' htexts'
      rw [hjoin _ rfl] at hgo
      exact (hturn.trans hgo).mono (Nat.zero_le _)

/-- The scan comes over a line of text with every value in its place. -/
theorem clears (l : TextLine) (haliases : k.aliases = []) {text : String} (htext : l.eval k.model = some text)
    (above : List String) (below : List Line) :
    (Sheet.between above (Delimiters.default.pieces l.text :: below)).Clears s m 0 k (.between (above ++ [text]) below) k := by
  obtain ⟨texts, htexts, rfl⟩ := Option.map_eq_some_iff.1 htext
  have hstart : (Sheet.between above (Delimiters.default.pieces l.text :: below)).Clears s m 0 k
      (.within above [] (Delimiters.default.pieces l.text) below) k :=
    .of_alike fun _ ↦ Draft.alike_enter above _ below
  have hgo := clears_rest hs htoolkit hm haliases above below _ [] texts l.inserts htexts
  exact (hstart.trans hgo)

end TextLine

theorem Sheet.find?_tag (above : List String) (p : List Char) (below : List Line) (t : Delimiters) :
    (Sheet.between above ([.marker p] :: below)).find? t = some ⟨above, [], p, [], below⟩ := rfl

theorem Template.reach (T : Template) {openers : List String} {closer : String} (h : Reach.Pairs openers closer)
    (haliases : k.aliases = []) {tag : Tag} (htag : tag.command.name = closer) (cmd : Command) (above : List String)
    (p : List Char) (below : List Line) :
    Gap.reach cmd k ⟨above, [], p, [], T.sheet ++ [.marker tag.payload] :: below⟩ openers closer =
      .ok (.there [] T.sheet [] [] below) := by
  have hclose : Aliases.nameOf? [] tag.payload = some closer := htag ▸ tag.nameOf?
  rw [Gap.reach, haliases]
  dsimp only
  rw [Reach.seek?_level (T.balanced.level h) hclose below]

namespace Conditional

include hs hm

/-- The scan comes before the body of a condition that holds, and behind the body of one that does not. -/
theorem clears (b : Conditional) (haliases : k.aliases = []) (body : Template) (above : List String) (below : List Line) :
    (Sheet.between above ([.marker b.opener.payload] :: (body.sheet ++ [.marker b.closer.payload] :: below))).Clears s m 0 k
      (.between above ((if b.condition.holds (Condition.orderIn k.model) then body.sheet else []) ++ below)) k := by
  have hget : s.registry.get? b.opener.command.name = some Handler.conditional := by rw [hs, b.opens]; rfl
  refine (Gap.clears_moved (Payload.single?_eq_some.1 b.opener.read) haliases hget ?_ (Sheet.find?_tag above b.opener.payload _ _)).mono (Nat.zero_le _)
  have hreach := body.reach .conditions haliases b.closes b.opener.command above b.opener.payload below
  simp only [Gap.answer, b.opens, hm.omits, Gap.conditional, b.accepted, hreach]
  cases hholds : b.condition.holds (Condition.orderIn k.model) <;>
    simp [hholds, Gap.opened, Gap.replicated, Gap.removed, Piece.kept, Sheet.part, bind, Except.bind, Except.mapError]

end Conditional

/-! ### Copies -/

theorem Model.push_eq_ok {M M' : Model} {name : String} {d : Datum} :
    M.push name d = .ok M' ↔ ∃ scope, M.scope.push name d = .ok scope ∧ M' = { M with scope } := by
  rw [Model.push]
  cases M.scope.push name d <;> simp [bind, Except.bind, eq_comm]

theorem Model.sound_push {M M' : Model} {name : String} {d : Datum} (hscope : M.scope.Sound) (h : M.push name d = .ok M') :
    M'.scope.Sound := by
  obtain ⟨scope, hbind, rfl⟩ := Model.push_eq_ok.1 h
  exact hscope.push hbind

theorem toOption_eq_some {ε α : Type} {x : Except ε α} {a : α} : x.toOption = some a ↔ x = .ok a := by
  cases x <;> simp [Except.toOption]

namespace Command

theorem bound_of {cmd : Command} {name : String} {source : Source} {d : Datum} {M' : Model} (hkey : cmd.str? "key" = some name)
    (hsource : cmd.source? "value" = .ok (some source)) (hvalue : M.value? source = some d) (hpush : M.push name d = .ok M') :
    cmd.bound M = .ok M' := by
  have hvalueIn : cmd.valueIn M = .ok (some d) := by
    rw [valueIn, hsource, ← hvalue]
    rfl
  rw [bound, requireStr, hkey, hvalueIn]
  simp only [bind, Except.bind, Option.getD_some, hpush]
  rfl

theorem released_of {cmd : Command} {name : String} {d : Datum} {M' : Model} (hkey : cmd.str? "key" = some name)
    (hscope : M.scope.Sound) (hpush : M.push name d = .ok M') : cmd.released M' = .ok M := by
  obtain ⟨scope, hbind, rfl⟩ := Model.push_eq_ok.1 hpush
  rw [released, requireStr, hkey]
  simp only [bind, Except.bind, hscope.pop?_push hbind]

end Command

namespace Loop

variable {b : Loop} {body : Template}

def markers (b : Loop) (i : ℕ) : Area.CopyMarkers :=
  (ElementBinding.ofVariable b.opener.command.elementName b.source).markers b.opener.command.indexName i

def copies (b : Loop) (body : Template) (i n : ℕ) : List Line :=
  (List.range' i n).flatMap fun i ↦
    ((b.markers i).lines .default).1 :: (body.sheet ++ [((b.markers i).lines .default).2])

theorem sound_params (b : Loop) : ∀ v, b.opener.command.param? "value" = some v → v.Sound := fun v hv ↦ by
  obtain ⟨_, hwritable⟩ := Payload.read_writable (Payload.single?_eq_some.1 b.opener.read)
  have hvalues := (hwritable _ (List.mem_singleton.2 rfl)).values
  exact Json.sound_of_readable v (Json.readableEntries_iff.1 hvalues _ (Entries.mem_of_get? hv))

theorem readsBack (b : Loop) (name : String) {i : ℕ} (hi : i < 2 ^ 63) :
    (ElementBinding.ofVariable name b.source).ReadsBack i := by
  have hmax : Path.maxIndex = 18446744073709551615 := rfl
  have hgiven := Command.source?_given b.given
  have hfree := b.free
  generalize b.source = source at hgiven hfree ⊢
  cases hgiven with
  | literal => trivial
  | ofVariable hregular hvariable => exact ElementBinding.parseVariable_elementText hregular hvariable (by omega)
  | ofModel => cases hfree

theorem pieces_of_holds {text : String} {cs : Commands} (h : Delimiters.default.Holds text cs) :
    ∃ p, Delimiters.default.pieces text.toList = [.marker p] ∧ Payload.read p = .ok cs := by
  obtain ⟨p, hcut, _, hread⟩ := h
  refine ⟨p, ?_, hread⟩
  rw [Delimiters.pieces_cut Delimiters.proper_default hcut]
  rfl

/-- The opening marker of a copy, alone in its line: it binds the element and then the index. -/
theorem opening (b : Loop) {items : List Datum} {d : Datum} {i : ℕ} (hitems : M.value? b.source = some (.list items)) (hd : items[i]? = some d) (hi : i < 2 ^ 63) :
    ∃ p c₁ c₂, ((b.markers i).lines .default).1 = [.marker p] ∧ Payload.read p = .ok [c₁, c₂] ∧
      c₁.name = "Push" ∧ c₂.name = "Push" ∧
      (∀ M₁, M.push b.opener.command.elementName d = .ok M₁ → c₁.bound M = .ok M₁) ∧
      ∀ M₁ M₂, M₁.push b.opener.command.indexName (.leaf (.int i)) = .ok M₂ → c₂.bound M₁ = .ok M₂ := by
  obtain ⟨hwrite, hsource⟩ := ElementBinding.pushElement_reads (Command.source?_given b.given) b.sound_params hitems hd
    (b.readsBack b.opener.command.elementName hi)
  obtain ⟨cs, hholds, hagree⟩ := Delimiters.holds_marker (b.markers i).opening (by simp [markers, ElementBinding.markers])
    (by simpa [markers, ElementBinding.markers] using
      ⟨hwrite, ElementBinding.pushing_writable _ (by decide) (ElementBinding.readable_int i hi)⟩)
  obtain ⟨sa, sb, rfl⟩ := ElementBinding.agree_two hagree
  obtain ⟨p, hpieces, hread⟩ := pieces_of_holds hholds
  refine ⟨p, _, _, ?_, hread, ElementBinding.pushElement_name _ _ _, rfl, fun M₁ hpush ↦ ?_, fun M₁ M₂ hpush ↦ ?_⟩
  · rw [Area.CopyMarkers.lines]
    dsimp only
    exact hpieces
  · obtain ⟨source, hsource, hvalue⟩ := hsource sa
    exact Command.bound_of (ElementBinding.pushElement_key _ _ _) hsource hvalue hpush
  · refine Command.bound_of rfl (ElementBinding.pushing_source_literal _ (.int i) sb) ?_ hpush
    rw [Model.value?, ElementBinding.ofJson_int i hi]

/-- The closing marker of a copy, alone in its line: it releases the index and then the element. -/
theorem closing (b : Loop) (i : ℕ) :
    ∃ p c₁ c₂, ((b.markers i).lines .default).2 = [.marker p] ∧ Payload.read p = .ok [c₁, c₂] ∧
      c₁.name = "Pop" ∧ c₂.name = "Pop" ∧ c₁.str? "key" = some b.opener.command.indexName ∧
        c₂.str? "key" = some b.opener.command.elementName := by
  obtain ⟨cs, hholds, hagree⟩ := Delimiters.holds_marker (b.markers i).closing (by simp [markers, ElementBinding.markers])
    (by simpa [markers, ElementBinding.markers] using
      ⟨ElementBinding.release_writable b.opener.command.indexName, ElementBinding.release_writable b.opener.command.elementName⟩)
  obtain ⟨sa, sb, rfl⟩ := ElementBinding.agree_two hagree
  obtain ⟨p, hpieces, hread⟩ := pieces_of_holds hholds
  refine ⟨p, _, _, ?_, hread, rfl, rfl, rfl, rfl⟩
  rw [Area.CopyMarkers.lines]
  dsimp only
  exact hpieces

include hs hm in
/-- The scan comes over the copy of an element, when it comes over the body with the element bound. -/
theorem clears_copy (haliases : k.aliases = []) (hscope : k.model.scope.Sound) {items : List Datum} {d : Datum}
    (hitems : k.model.value? b.source = some (.list items)) (hd : items[i]? = some d) (hi : i < 2 ^ 63) {M₁ M₂ : Model}
    (hpush : k.model.push b.opener.command.elementName d = .ok M₁)
    (hpush' : M₁.push b.opener.command.indexName (.leaf (.int i)) = .ok M₂) {out above : List String} {below : List Line}
    (hbody : ∀ below, (Sheet.between above (body.sheet ++ below)).Clears s m 0 { k with model := M₂ }
      (.between (above ++ out) below) { k with model := M₂ }) :
    (Sheet.between above (b.copies body i 1 ++ below)).Clears s m 1 k (.between (above ++ out) below) k := by
  obtain ⟨p, c₁, c₂, hopening, hread, hname₁, hname₂, hbound₁, hbound₂⟩ := b.opening hitems hd hi
  obtain ⟨q, d₁, d₂, hclosing, hread', hname₁', hname₂', hkey₁, hkey₂⟩ := b.closing i
  have hcopies : b.copies body i 1 ++ below = [.marker p] :: (body.sheet ++ [.marker q] :: below) := by
    simp [copies, hopening, hclosing]
  have hsound := Model.sound_push hscope hpush
  have hpushes : ∀ {c : Command} {k : Desk} {M' : Model}, c.name = "Push" → c.bound k.model = .ok M' →
      Gap.Consumes s m c k M' := fun hname hbound ↦ by
    refine ⟨by rw [hs, hname]; rfl, by simp [hname, hm.omits], by simp [hname, Manual.openers], ?_⟩
    rw [hm.push _ hname, Desk.consuming, hbound]
  have hpops : ∀ {c : Command} {k : Desk} {M' : Model}, c.name = "Pop" → c.released k.model = .ok M' →
      Gap.Consumes s m c k M' := fun hname hreleased ↦ by
    refine ⟨by rw [hs, hname]; rfl, by simp [hname, hm.omits], by simp [hname, Manual.openers], ?_⟩
    rw [hm.pop _ hname, Desk.consuming, hreleased]
  -- the element and the index are bound, and released again behind the body
  have hopen : (Sheet.between above ([.marker p] :: (body.sheet ++ [.marker q] :: below))).Clears s m 1 k
      (.between above (body.sheet ++ [.marker q] :: below)) { k with model := M₂ } :=
    Gap.clears_consumed hread haliases (hpushes hname₁ (hbound₁ M₁ hpush)) (hpushes hname₂ (hbound₂ M₁ M₂ hpush'))
  have hclose : (Sheet.between (above ++ out) ([.marker q] :: below)).Clears s m 1 { k with model := M₂ }
      (.between (above ++ out) below) k :=
    Gap.clears_consumed hread' haliases (hpops hname₁' (Command.released_of hkey₁ hsound hpush'))
      (hpops hname₂' (Command.released_of hkey₂ hscope hpush))
  rw [hcopies]
  exact ((hopen.trans (hbody _)).trans hclose).mono (by omega)

theorem copies_succ (b : Loop) (body : Template) (i n : ℕ) :
    b.copies body i (n + 1) = b.copies body i 1 ++ b.copies body (i + 1) n := by
  simp [copies, List.range'_succ]

theorem copies_append (b : Loop) (body : Template) (i n l : ℕ) :
    b.copies body i (n + l) = b.copies body i n ++ b.copies body (i + n) l := by
  rw [copies, ← List.range'_append_1, List.flatMap_append]
  rfl

/-- The body of a loop is rendered as it is evaluated. -/
def Renders (s : Scanner) (m : Manual) (k : Desk) (body : Template) : Prop :=
  ∀ (M : Model) (out above : List String) (below : List Line), M.scope.Sound → body.eval M = some out →
    (Sheet.between above (body.sheet ++ below)).Clears s m 0 { k with model := M } (.between (above ++ out) below)
      { k with model := M }

include hs hm in
theorem clears_copies (haliases : k.aliases = []) (hscope : k.model.scope.Sound) {items : List Datum}
    (hitems : k.model.value? b.source = some (.list items)) (hbody : Renders s m k body) :
    ∀ (rest : List Datum) (i : ℕ) (models : List Model) (outs : List (List String)) (above : List String) (below : List Line),
    (∀ j d, rest[j]? = some d → items[i + j]? = some d) → i + rest.length ≤ 2 ^ 63 →
    ((rest.zipIdx i).mapM fun (d, i) ↦ do
      let inner ← (k.model.push b.opener.command.elementName d).toOption
      (inner.push b.opener.command.indexName (.leaf (.int i))).toOption) = some models →
    (models.mapM fun M ↦ body.eval M) = some outs →
    (Sheet.between above (b.copies body i rest.length ++ below)).Clears s m rest.length k
      (.between (above ++ outs.flatten) below) k := by
  intro rest
  induction rest with
  | nil =>
    intro i models outs above below _ _ hmodels houts
    obtain rfl : models = [] := by simpa using hmodels.symm
    obtain rfl : outs = [] := by simpa using houts.symm
    simpa [copies] using Sheet.Clears.refl (.between above below) k
  | cons d rest ih =>
    intro i models outs above below hat hlength hmodels houts
    rw [List.zipIdx_cons, List.mapM_cons] at hmodels
    obtain ⟨M₂, hM₂, hmodels⟩ := Option.bind_eq_some_iff.1 hmodels
    obtain ⟨models', hmodels', hmodels⟩ := Option.bind_eq_some_iff.1 hmodels
    obtain rfl : M₂ :: models' = models := Option.some.inj hmodels
    obtain ⟨M₁, hM₁, hM₂⟩ := Option.bind_eq_some_iff.1 hM₂
    rw [List.mapM_cons] at houts
    obtain ⟨out, hout, houts⟩ := Option.bind_eq_some_iff.1 houts
    obtain ⟨outs', houts', houts⟩ := Option.bind_eq_some_iff.1 houts
    obtain rfl : out :: outs' = outs := Option.some.inj houts
    have hpush := toOption_eq_some.1 hM₁
    have hpush' := toOption_eq_some.1 hM₂
    have hsound : M₂.scope.Sound := Model.sound_push (Model.sound_push hscope hpush) hpush'
    have hd : items[i]? = some d := hat 0 d rfl
    rw [List.length_cons] at hlength
    have hcopy : (Sheet.between above (b.copies body i 1 ++ (b.copies body (i + 1) rest.length ++ below))).Clears s m 1 k
        (.between (above ++ out) (b.copies body (i + 1) rest.length ++ below)) k :=
      clears_copy hs hm haliases hscope hitems hd (by omega) hpush hpush' fun below ↦ hbody M₂ out above below hsound hout
    have hrest := ih (i + 1) models' outs' (above ++ out) below (fun j d hj ↦ by
      rw [Nat.add_assoc, Nat.add_comm 1 j]
      exact hat (j + 1) d hj) (by omega) hmodels' houts'
    rw [List.length_cons, copies_succ, List.append_assoc, List.flatten_cons, ← List.append_assoc above]
    exact (hcopy.trans hrest).mono (by omega)

theorem bindingOf_eq (b : Loop) (cursor : Path) : Handler.bindingOf cursor
    (b.opener.command.str? "$as" <|> b.opener.command.str? "as") b.source =
      .ok (.ofVariable b.opener.command.elementName b.source) := by
  have hname : Scope.checkName ((b.opener.command.str? "$as" <|> b.opener.command.str? "as").getD "item") = .ok () :=
    if_pos b.element
  have hfree := b.free
  generalize b.source = source at hfree ⊢
  cases source with
  | literal => simp only [Handler.bindingOf, hname, Command.elementName]
  | ofVariable => simp only [Handler.bindingOf, hname, Command.elementName]
  | ofModel p => cases hfree

theorem countElements_eq {d? : Option Datum} {items : List Datum} (h : Datum.elements? d? = some items) :
    Handler.countElements d? = .ok items.length := by
  rcases d? with _ | ⟨_ | _ | _ | _ | _⟩ | _ | _ <;> cases h <;> rfl

include hs htoolkit hm in
/-- The scan comes before the copies that take the place of a loop. -/
theorem clears_opener (b : Loop) (haliases : k.aliases = []) {items : List Datum}
    (hitems : Datum.elements? (k.model.value? b.source) = some items) (body : Template) (above : List String) (below : List Line) :
    (Sheet.between above ([.marker b.opener.payload] :: (body.sheet ++ [.marker b.closer.payload] :: below))).Clears s m 0 k
      (.between above (b.copies body 0 items.length ++ below)) k := by
  have hdelimiters : s.toolkit.delimiters = .default := congrArg Toolkit.delimiters htoolkit
  have hget : s.registry.get? b.opener.command.name = some Handler.loop := by rw [hs, b.opens]; rfl
  refine (Gap.clears_moved (Payload.single?_eq_some.1 b.opener.read) haliases hget ?_ (Sheet.find?_tag above b.opener.payload _ _)).mono (Nat.zero_le _)
  have hreach := body.reach .loops haliases b.closes b.opener.command above b.opener.payload below
  have hmarkers : Gap.loopMarkers b.opener.command k = .ok ((List.range items.length).map b.markers) := by
    have hindex : Scope.checkName ((b.opener.command.str? "index").getD "index") = .ok () := if_pos b.index
    rw [Gap.loopMarkers, b.given]
    dsimp only [bind, Except.bind]
    rw [hindex, countElements_eq hitems, b.bindingOf_eq]
    rfl
  have hmoved : Gap.replicated ⟨above, [], b.opener.payload, [], body.sheet ++ [.marker b.closer.payload] :: below⟩
      (((List.range items.length).map b.markers).map (·.lines .default)) (.there [] body.sheet [] [] below) =
        .between above (b.copies body 0 items.length ++ below) := by
    simp [Gap.replicated, Sheet.part, copies, List.range_eq_range', List.flatMap_map]
  simp only [Gap.answer, b.opens, hm.omits, Gap.loop, hmarkers, hreach, hdelimiters, bind, Except.bind, hmoved]
  simp

include hs hm in
/-- The scan comes over all copies, or is stopped on the way when they are too many for their indices. -/
theorem clears_all (b : Loop) (haliases : k.aliases = []) (hscope : k.model.scope.Sound) {items : List Datum}
    (hitems : Datum.elements? (k.model.value? b.source) = some items) {body : Template} (hbody : Renders s m k body)
    (hsteps : s.settings.maxSteps < 2 ^ 63) {models : List Model} {outs : List (List String)} (above : List String)
    (below : List Line)
    (hmodels : (items.zipIdx.mapM fun (d, i) ↦ do
      let inner ← (k.model.push b.opener.command.elementName d).toOption
      (inner.push b.opener.command.indexName (.leaf (.int i))).toOption) = some models)
    (houts : (models.mapM fun M ↦ body.eval M) = some outs) :
    (Sheet.between above (b.copies body 0 items.length ++ below)).Clears s m 0 k (.between (above ++ outs.flatten) below) k := by
  cases items with
  | nil =>
    obtain rfl : models = [] := by simpa using hmodels.symm
    obtain rfl : outs = [] := by simpa using houts.symm
    simpa [copies] using Sheet.Clears.refl (.between above below) k
  | cons d rest =>
    have hlist : k.model.value? b.source = some (.list (d :: rest)) := by
      rcases hvalue : k.model.value? b.source with _ | ⟨_ | _ | _ | _ | _⟩ | _ | _ <;> rw [hvalue] at hitems <;> cases hitems
      rfl
    rcases Nat.lt_or_ge (2 ^ 63) (d :: rest).length with hlong | hshort
    · -- the scan is stopped before it is out of indices
      obtain ⟨first, later, hsplit, hfirst⟩ : ∃ first later, first ++ later = d :: rest ∧ first.length = s.settings.maxSteps + 1 :=
        ⟨_, _, List.take_append_drop (s.settings.maxSteps + 1) _, by rw [List.length_take]; omega⟩
      rw [← hsplit] at hmodels hlist ⊢
      rw [List.zipIdx_append, List.mapM_append] at hmodels
      obtain ⟨models₁, hmodels₁, hmodels⟩ := Option.bind_eq_some_iff.1 hmodels
      obtain ⟨models₂, _, hmodels⟩ := Option.bind_eq_some_iff.1 hmodels
      obtain rfl : models₁ ++ models₂ = models := Option.some.inj hmodels
      rw [List.mapM_append] at houts
      obtain ⟨outs₁, houts₁, _⟩ := Option.bind_eq_some_iff.1 houts
      have hcopies := clears_copies hs hm haliases hscope hlist hbody first 0 models₁ outs₁ above
        (b.copies body (0 + first.length) later.length ++ below) (fun j d hj ↦ by
          rw [Nat.zero_add, List.getElem?_append_left (List.getElem?_eq_some_iff.1 hj).1, hj]) (by omega) hmodels₁ houts₁
      rw [List.length_append, copies_append, List.append_assoc]
      exact hcopies.of_long (by omega)
    · exact (clears_copies hs hm haliases hscope hlist hbody (d :: rest) 0 models outs above below
        (fun j d hj ↦ by rwa [Nat.zero_add]) (by omega) hmodels houts).mono (Nat.zero_le _)

end Loop

namespace Template

include hs htoolkit hm in
/-- The scan comes over a template with the lines that it is evaluated to. -/
theorem clears (hsteps : s.settings.maxSteps < 2 ^ 63) (haliases : k.aliases = []) : ∀ (T : Template), Loop.Renders s m k T
  | nil, M, out, above, below, _, hout => by
    obtain rfl : [] = out := Option.some.inj hout
    simpa [sheet_nil] using Sheet.Clears.refl (.between above below) { k with model := M }
  | line l rest, M, out, above, below, hscope, hout => by
    obtain ⟨text, htext, hout⟩ := Option.bind_eq_some_iff.1 hout
    obtain ⟨out', hrest, hout⟩ := Option.bind_eq_some_iff.1 hout
    obtain rfl : text :: out' = out := Option.some.inj hout
    have hline := l.clears hs htoolkit hm (k := { k with model := M }) haliases htext above (rest.sheet ++ below)
    have hgo := rest.clears hsteps haliases M out' (above ++ [text]) below hscope hrest
    rw [List.append_assoc] at hgo
    exact hline.trans hgo
  | conditional b body rest, M, out, above, below, hscope, hout => by
    obtain ⟨inner, hinner, hout⟩ := Option.bind_eq_some_iff.1 hout
    obtain ⟨out', hrest, hout⟩ := Option.bind_eq_some_iff.1 hout
    obtain rfl : inner ++ out' = out := Option.some.inj hout
    have hturn := b.clears hs hm (k := { k with model := M }) haliases body above (rest.sheet ++ below)
    have hgo := rest.clears hsteps haliases M out' (above ++ inner) below hscope hrest
    have hbody : (Sheet.between above ((if b.condition.holds (Condition.orderIn M) then body.sheet else []) ++
        (rest.sheet ++ below))).Clears s m 0 { k with model := M } (.between (above ++ inner) (rest.sheet ++ below))
          { k with model := M } := by
      by_cases hholds : b.condition.holds (Condition.orderIn M) = true
      · rw [if_pos hholds] at hinner ⊢
        exact body.clears hsteps haliases M inner above (rest.sheet ++ below) hscope hinner
      · rw [if_neg hholds] at hinner ⊢
        obtain rfl : [] = inner := Option.some.inj hinner
        rw [List.append_nil]
        exact .refl _ _
    have hsheet : (conditional b body rest).sheet ++ below =
        [.marker b.opener.payload] :: (body.sheet ++ [.marker b.closer.payload] :: (rest.sheet ++ below)) := by
      simp [sheet_conditional]
    rw [hsheet, ← List.append_assoc]
    exact hturn.trans (hbody.trans hgo)
  | loop b body rest, M, out, above, below, hscope, hout => by
    obtain ⟨models, hmodels, hout⟩ := Option.bind_eq_some_iff.1 hout
    obtain ⟨outs, houts, hout⟩ := Option.bind_eq_some_iff.1 hout
    obtain ⟨out', hrest, hout⟩ := Option.bind_eq_some_iff.1 hout
    obtain rfl : outs.flatten ++ out' = out := Option.some.inj hout
    obtain ⟨items, hitems, hmodels⟩ := Option.bind_eq_some_iff.1 hmodels
    have hturn := b.clears_opener hs htoolkit hm (k := { k with model := M }) haliases hitems body above
      (rest.sheet ++ below)
    have hcopies := b.clears_all hs hm (k := { k with model := M }) haliases hscope hitems (body.clears hsteps haliases) hsteps
      above (rest.sheet ++ below) hmodels houts
    have hgo := rest.clears hsteps haliases M out' (above ++ outs.flatten) below hscope hrest
    have hsheet : (loop b body rest).sheet ++ below =
        [.marker b.opener.payload] :: (body.sheet ++ [.marker b.closer.payload] :: (rest.sheet ++ below)) := by
      simp [sheet_loop]
    rw [hsheet, ← List.append_assoc]
    exact hturn.trans (hcopies.trans hgo)

end Template

end Rendering

/-! ### Rendering -/

theorem Tag.single_text (g : Tag) : Text.IsLine g.text := by
  obtain ⟨hfeed, hreturn⟩ := g.single
  constructor <;> simp [Tag.text, Delimiters.enclose, Delimiters.default, hfeed, hreturn]

namespace Template

theorem single_lines : ∀ (T : Template), ∀ l ∈ T.lines, Text.IsLine l
  | nil => by simp [lines]
  | line l rest => by
    simp only [lines, List.forall_mem_cons]
    exact ⟨l.single, rest.single_lines⟩
  | conditional b body rest => by
    simp only [lines, List.forall_mem_cons, List.forall_mem_append]
    exact ⟨b.opener.single_text, body.single_lines, b.closer.single_text, rest.single_lines⟩
  | loop b body rest => by
    simp only [lines, List.forall_mem_cons, List.forall_mem_append]
    exact ⟨b.opener.single_text, body.single_lines, b.closer.single_text, rest.single_lines⟩

theorem lines_source (T : Template) : Text.lines T.source.toList = T.lines := by
  rw [source, String.toList_ofList, Text.lines_flatMap T.single_lines]

/-- A structured template is rendered as it is evaluated: a run that is not stopped leaves the lines that the
template stands for with the data and the variables given, finds nothing wrong, and leaves the model as it was. -/
theorem renderText_eval (T : Template) {R : Renderer} (hsettings : R.settings = .default) (hregistry : R.registry = .builtin)
    (haliases : R.aliases = []) (w : Workshop) {M : Model} (hscope : M.scope.Sound) {out : List String}
    (heval : T.eval M = some out) (hstop : ∀ n, (R.renderText w T.source M).result ≠ .error (.stepLimit n)) :
    (∃ report, (R.renderText w T.source M).result = .ok report ∧ report.findings = []) ∧
      (R.renderText w T.source M).text = "\n".intercalate out ∧ (R.renderText w T.source M).state.model = M := by
  obtain ⟨settings, registry, aliases, provider, now⟩ := R
  obtain rfl : settings = .default := hsettings
  obtain rfl : registry = .builtin := hregistry
  obtain rfl : aliases = [] := haliases
  let R : Renderer := ⟨.default, .builtin, [], provider, now⟩
  let s : Scanner := R.scanner (.ofDelimiters .default)
  obtain ⟨m, hm⟩ := Scanner.exists_reads (s := s) rfl
  obtain ⟨report, hfindings, hpasses⟩ := T.clears (s := s) (k := ⟨M, [], w.services⟩) rfl rfl hm (show (100000 : ℕ) < 2 ^ 63 by decide) rfl
    M out [] []
    hscope heval .empty
  have hrender := fun x ↦ Renderer.renderText_on (x := x) R rfl Delimiters.visible_default hm.follows w T.source M
  rw [Renderer.draft, lines_source] at hrender
  rw [List.append_nil] at hpasses
  rcases hpasses.scan_eq rfl with hscan | hscan
  · exact absurd (hrender _ hscan).1 (hstop _)
  · obtain ⟨hresult, htext⟩ := hrender _ hscan
    obtain ⟨hlines, hdesk⟩ := htext _ rfl
    refine ⟨⟨_, hresult, hfindings⟩, ?_, congrArg Desk.model hdesk⟩
    rw [hlines]
    simp [Draft.finish, Sheet.lines]

def rowsLoop : Loop :=
  (Loop.of? ((Tag.of? "For value:[[5],[]], $as:'row'".toList).get (by decide +kernel))
    ((Tag.of? "EndFor".toList).get (by decide +kernel))).get (by decide +kernel)

def cellsLoop : Loop :=
  (Loop.of? ((Tag.of? "For $value:'row'".toList).get (by decide +kernel))
    ((Tag.of? "EndFor".toList).get (by decide +kernel))).get (by decide +kernel)

def firstRow : Conditional :=
  (Conditional.of? ((Tag.of? "If '$index':0".toList).get (by decide +kernel))
    ((Tag.of? "EndIf".toList).get (by decide +kernel))).get (by decide +kernel)

def cellLine : TextLine := (TextLine.of? "$\x7b$index\x7d: $\x7b$item\x7d".toList).get (by decide +kernel)

def rowsAndCells : Template := .loop rowsLoop (.conditional firstRow (.loop cellsLoop (.line cellLine .nil) .nil) .nil) .nil

theorem renderText_eval_rows :
    (Renderer.plain.renderText Renderer.plain.workshop rowsAndCells.source (.ofData (.map []))).text = "\n".intercalate ["0: 5"] ∧
      (Renderer.plain.renderText Renderer.plain.workshop rowsAndCells.source (.ofData (.map []))).state.model = .ofData (.map []) := by
  have heval : rowsAndCells.eval (.ofData (.map [])) = some ["0: 5"] := by decide +kernel
  have hrun : (Renderer.plain.renderText Renderer.plain.workshop rowsAndCells.source (.ofData (.map []))).result.toBool = true := by
    decide +kernel
  have hstop : ∀ n, (Renderer.plain.renderText Renderer.plain.workshop rowsAndCells.source (.ofData (.map []))).result ≠
      .error (.stepLimit n) := fun n hn ↦ by
    rw [hn] at hrun
    cases hrun
  have hsettings : Renderer.plain.settings = .default := rfl
  have hregistry : Renderer.plain.registry = .builtin := rfl
  have haliases : Renderer.plain.aliases = [] := rfl
  have hscope : (Model.ofData (.map [])).scope.Sound := Scope.sound_empty
  have h := renderText_eval rowsAndCells hsettings hregistry haliases Renderer.plain.workshop hscope heval hstop
  exact h.2

end Template

end Stencil
