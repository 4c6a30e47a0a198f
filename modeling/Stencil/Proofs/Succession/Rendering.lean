import Stencil.Proofs.Payload.Endings
import Stencil.Proofs.Succession.Ahead
import Stencil.Proofs.Text.Lines
/-!
Texts one after another. Where the blocks of a first text are closed in it, a run over this text and a second one does
what a run over the first does, and goes on at the second as a run of its own that begins with the model that the
first has left.
-/

namespace Stencil

/-! ### Lines below -/

section Follow

variable (t : Delimiters) (more : List Line)

/-- More lines below, at the end of a scan too. -/
def Sheet.follow : Sheet → Sheet
  | within above left right below => within above left right (below ++ more)
  | between above below => between above (below ++ more)
  | halted lines => halted (lines ++ more.map (Piece.line t))

def Gap.follow (g : Gap) : Gap := { g with below := g.below ++ more }

namespace Sheet

theorem lines_follow (S : Sheet) : (S.follow t more).lines t = S.lines t ++ more.map (Piece.line t) := by
  cases S <;> simp [follow, lines]

theorem findBelow?_follow (above : List String) (ls : List Line) : findBelow? t above (ls ++ more) =
    match findBelow? t above ls with
    | some g => some (g.follow more)
    | none => findBelow? t (above ++ ls.map (Piece.line t)) more := by
  induction ls generalizing above with
  | nil => simp [findBelow?]
  | cons l ls ih =>
    rw [List.cons_append, findBelow?, findBelow?]
    cases Piece.breakMarker? l with
    | some _ => rfl
    | none =>
      dsimp only
      rw [ih]
      simp

variable {t} in
/-- The scan finds the markers below when it has found those before. -/
theorem find?_follow {S : Sheet} {ls : List Line} (h : S.ahead? = some ls) : (S.follow t more).find? t =
    match S.find? t with
    | some g => some (g.follow more)
    | none => findBelow? t (S.lines t) more := by
  cases S with
  | within above left right below =>
    rw [follow, find?, find?]
    cases Piece.breakMarker? right with
    | some _ => rfl
    | none =>
      dsimp only
      rw [findBelow?_follow]
      simp [lines]
  | between above below => exact findBelow?_follow t more above below
  | halted lines => cases h

end Sheet

namespace Gap

variable {t more} (g : Gap)

theorem removed_follow : (g.follow more).removed t = (g.removed t).follow t more := by
  rw [removed, removed, apply_ite (Sheet.follow t more)]
  rfl

theorem merged_follow (ls : List Line) : (g.follow more).merged t ls = (g.merged t ls).follow t more := by
  rw [merged, merged, apply_ite (Sheet.follow t more), removed_follow, Sheet.follow, List.append_assoc, List.append_assoc]
  rfl

theorem opened_follow (R : Reach) : (g.follow more).opened t (R.follow more) = (g.opened t R).follow t more := by
  cases R with
  | here mid rest => exact removed_follow { g with right := mid ++ rest }
  | there first mid front rest below =>
    simp only [opened, ← removed_follow, follow, Reach.follow, List.append_assoc]

theorem replicated_follow (ms : List (Line × Line)) (R : Reach) : (g.follow more).replicated ms (R.follow more) = (g.replicated ms R).follow t more := by
  cases R with
  | here mid rest => rfl
  | there first mid front rest below => simp [follow, replicated, Reach.follow, Sheet.follow]

theorem skipped_follow (R : Reach) : (g.follow more).skipped t (some (R.follow more)) = (g.skipped t (some R)).follow t more := by
  cases R with
  | here mid rest =>
    rw [skipped, apply_ite (Sheet.follow t more), apply_ite (Sheet.follow t more), Sheet.follow.eq_3, List.append_assoc, ← List.map_append]
    rfl
  | there first mid front rest below =>
    rw [skipped, apply_ite (Sheet.follow t more)]
    rfl

end Gap

end Follow

variable {t : Delimiters} {as : Aliases} {s : Scanner} {m : Manual}

/-- A marker from which every search comes to an end. -/
def Gap.Ends (as : Aliases) (g : Gap) : Prop := ∀ c, as.Says g.payload c →
  (c.name = "Ignore" → ∃ R, Reach.seek? as [] "EndIgnore" ⟨0, false⟩ g.right g.below = some R) ∧
    ∀ closer, Reach.Pairs [c.name] closer → ∃ R, Reach.seek? as [c.name] closer ⟨0, false⟩ g.right g.below = some R

theorem Ahead.ends {g : Gap} (h : Ahead t as g.ahead) (hsole : as.Sole g.payload) : g.Ends as := fun c hsaid ↦ by
  refine ⟨fun hname ↦ ?_, fun closer hpairs ↦ ?_⟩
  · obtain ⟨R, _, hR, -⟩ := h.region (hname ▸ hsole.name hsaid (by simp [hname, Manual.openers]))
    exact ⟨R, hR⟩
  · obtain ⟨R, _, hR, -⟩ := h.block hpairs (hsole.name hsaid (by rcases hpairs.either with ⟨hname, -⟩ | ⟨hname, -⟩ <;> simp [hname, Manual.openers]))
    exact ⟨R, hR⟩

/-- Scans up to the same place, of which the first has more lines below. -/
def Likeness.following (t : Delimiters) (p : Provider) (as : Aliases) (more : List Line) : Likeness where
  sheets S S' := S = S'.follow t more
  gaps g g' := g = g'.follow more ∧ g'.Ends as
  reaches R R' := R = R'.follow more
  desks k k' := k = k' ∧ k.Keeps p as
  reports := Eq
  lines ls ls' := ls = ls' ++ more.map (Piece.line t)

/-- A turn does not feel lines that are put below, when no search from its marker comes to them. -/
theorem Manual.Quiet.agrees_following (hm : m.Quiet s.provider) (as : Aliases) (more : List Line) :
    (Likeness.following s.toolkit.delimiters s.provider as more).Agrees s m as where
  payload hg := hg.1 ▸ rfl
  passed hg c := hg.1 ▸ rfl
  removed hg := hg.1 ▸ Gap.removed_follow _
  merged hg ls := hg.1 ▸ Gap.merged_follow _ ls
  opened hg hR := by
    obtain ⟨rfl, -⟩ := hg
    obtain rfl := hR
    exact Gap.opened_follow ..
  replicated hg hR ms := by
    obtain ⟨rfl, -⟩ := hg
    obtain rfl := hR
    exact Gap.replicated_follow ..
  skipped hg hsaid hname _ := by
    obtain ⟨rfl, hends⟩ := hg
    obtain ⟨R, hR⟩ := (hends _ hsaid).1 hname
    rw [Gap.follow, Reach.seek?_follow hR, hR]
    exact Gap.skipped_follow ..
  sought hg hsaid hpairs := by
    obtain ⟨rfl, hends⟩ := hg
    obtain ⟨R, hR⟩ := (hends _ hsaid).2 _ hpairs
    rw [Gap.follow, Reach.seek?_follow hR, hR]
    exact .some rfl
  model hk := congrArg Desk.model hk.1
  aliases hk := ⟨hk.2.aliases, hk.1 ▸ hk.2.aliases⟩
  told hk c hc := by
    obtain ⟨rfl, hk⟩ := hk
    exact ⟨rfl, rfl, hm.keeps hk hc⟩
  executed hr := congrArg Report.addExecuted hr
  ignored hr := congrArg Report.addIgnored hr
  found hr f := hr ▸ rfl

/-! ### Lines above -/

section Under

variable (t : Delimiters) (top : List String)

def Sheet.under : Sheet → Sheet
  | within above left right below => within (top ++ above) left right below
  | between above below => between (top ++ above) below
  | halted lines => halted (top ++ lines)

def Gap.under (g : Gap) : Gap := { g with above := top ++ g.above }

namespace Sheet

theorem lines_under (S : Sheet) : (S.under top).lines t = top ++ S.lines t := by
  cases S <;> simp [under, lines]

theorem findBelow?_under (above : List String) (ls : List Line) : findBelow? t (top ++ above) ls = (findBelow? t above ls).map (Gap.under top) := by
  induction ls generalizing above with
  | nil => rfl
  | cons l ls ih =>
    rw [findBelow?, findBelow?]
    cases Piece.breakMarker? l with
    | some _ => rfl
    | none =>
      dsimp only
      rw [List.append_assoc, ih]

theorem find?_under (S : Sheet) : (S.under top).find? t = (S.find? t).map (Gap.under top) := by
  cases S with
  | within above left right below =>
    rw [under, find?, find?]
    cases Piece.breakMarker? right with
    | some _ => rfl
    | none =>
      dsimp only
      rw [List.append_assoc, findBelow?_under]
  | between above below => exact findBelow?_under t top above below
  | halted lines => rfl

end Sheet

namespace Gap

variable {t top} (g : Gap)

theorem removed_under : (g.under top).removed t = (g.removed t).under top := by
  rw [removed, removed, apply_ite (Sheet.under top)]
  rfl

theorem merged_under (ls : List Line) : (g.under top).merged t ls = (g.merged t ls).under top := by
  rw [merged, merged, apply_ite (Sheet.under top), removed_under]
  rfl

theorem opened_under (R : Reach) : (g.under top).opened t R = (g.opened t R).under top := by
  cases R with
  | here mid rest => exact removed_under { g with right := mid ++ rest }
  | there first mid front rest below => exact removed_under { g with right := first, below := mid ++ (Piece.kept t (front ++ rest) ++ below) }

theorem replicated_under (ms : List (Line × Line)) (R : Reach) : (g.under top).replicated ms R = (g.replicated ms R).under top := by
  cases R with
  | here mid rest => rfl
  | there first mid front rest below => simp [under, replicated, Sheet.under]

theorem skipped_under (R? : Option Reach) : (g.under top).skipped t R? = (g.skipped t R?).under top := by
  rcases R? with _ | ⟨mid, rest⟩ | ⟨first, mid, front, rest, below⟩
  · simp only [skipped, removed_under, Sheet.lines_under]
    rfl
  · rw [skipped, skipped, apply_ite (Sheet.under top), apply_ite (Sheet.under top), Sheet.under.eq_3, ← List.append_assoc]
    rfl
  · rw [skipped, skipped, apply_ite (Sheet.under top), Sheet.under.eq_1, Sheet.under.eq_2, ← List.append_assoc, ← List.append_assoc]
    rfl

end Gap

end Under

def Report.plus (r r' : Report) : Report := ⟨r.executed + r'.executed, r.ignored + r'.ignored, r.findings ++ r'.findings⟩

/-- Scans up to the same place, of which the first has lines above and a report from there. -/
def Likeness.beneath (p : Provider) (as : Aliases) (top : List String) (r₀ : Report) : Likeness where
  sheets S S' := S = S'.under top
  gaps g g' := g = g'.under top
  reaches := Eq
  desks k k' := k.Alike p k' ∧ k.aliases = as
  reports r r' := r = r₀.plus r'
  lines ls ls' := ls = top ++ ls'

/-- A scan does not feel what is above it. -/
theorem Manual.Quiet.lasts_beneath (hm : m.Quiet s.provider) (as : Aliases) (top : List String) (r₀ : Report) :
    (Likeness.beneath s.provider as top r₀).Lasts s m as where
  payload hg := hg ▸ rfl
  passed hg c := hg ▸ rfl
  removed hg := hg ▸ Gap.removed_under _
  merged hg ls := hg ▸ Gap.merged_under _ ls
  opened hg hR := by
    obtain rfl := hg
    obtain rfl := hR
    exact Gap.opened_under ..
  replicated hg hR ms := by
    obtain rfl := hg
    obtain rfl := hR
    exact Gap.replicated_under ..
  skipped hg _ _ _ := by
    obtain rfl := hg
    exact Gap.skipped_under ..
  sought {g g' c closer} hg _ _ := by
    obtain rfl := hg
    change Option.Rel Eq (Reach.seek? as [c.name] closer ⟨0, false⟩ g'.right g'.below) (Reach.seek? as [c.name] closer ⟨0, false⟩ g'.right g'.below)
    cases Reach.seek? as [c.name] closer ⟨0, false⟩ g'.right g'.below with
    | none => exact .none
    | some R => exact .some rfl
  model hk := hk.1.model
  aliases hk := ⟨hk.2, hk.1.aliases ▸ hk.2⟩
  told hk c hc := by
    obtain ⟨hresult, hdesk, haliases⟩ := hm.fair c hc _ _ hk.1
    exact ⟨hresult, hdesk, haliases.trans hk.2⟩
  executed hr := by
    obtain rfl := hr
    rfl
  ignored hr := by
    obtain rfl := hr
    rfl
  found hr f := by
    obtain rfl := hr
    exact congrArg (Report.mk _ _) (List.append_assoc ..)
  meets {D D'} hdrafts := by
    obtain ⟨S, k, r⟩ := D
    obtain ⟨S', k', r'⟩ := D'
    obtain ⟨hsheet, hk, hr⟩ := hdrafts
    obtain rfl : S = S'.under top := hsheet
    have hfind := S'.find?_under s.toolkit.delimiters top
    cases hg : S'.find? s.toolkit.delimiters with
    | none => exact .nothing (by rw [hfind, hg]; rfl) hg (S'.lines_under s.toolkit.delimiters top)
    | some g => exact .marker (by rw [hfind, hg]; rfl) hg rfl

/-! ### The next marker -/

theorem Sheet.findBelow?_eq_some {above : List String} {ls : List Line} {g : Gap} (h : findBelow? t above ls = some g) :
    ∃ passed front, ls = passed ++ (front ++ .marker g.payload :: g.right) :: g.below ∧
      (∀ l ∈ passed, ∀ q ∈ l, q.isMarker = false) ∧ ∀ q ∈ front, q.isMarker = false := by
  induction ls generalizing above with
  | nil => cases h
  | cons l ls ih =>
    rw [findBelow?] at h
    rcases Piece.break_cases l with hwords | ⟨front, p, back, hfront, rfl⟩
    · rw [Piece.breakMarker?_none hwords] at h
      obtain ⟨passed, front, rfl, hpassed, hfront⟩ := ih h
      exact ⟨l :: passed, front, rfl, List.forall_mem_cons.2 ⟨hwords, hpassed⟩, hfront⟩
    · rw [Piece.breakMarker?_append hfront] at h
      obtain rfl := Option.some.inj h
      exact ⟨[], front, rfl, List.forall_mem_nil _, hfront⟩

theorem Sheet.find?_eq_some {S : Sheet} {g : Gap} (h : S.find? t = some g) :
    ∃ passed front, S.ahead? = some (passed ++ (front ++ .marker g.payload :: g.right) :: g.below) ∧
      (∀ l ∈ passed, ∀ q ∈ l, q.isMarker = false) ∧ ∀ q ∈ front, q.isMarker = false := by
  cases S with
  | within above left right below =>
    rw [find?] at h
    rcases Piece.break_cases right with hwords | ⟨front, p, back, hfront, rfl⟩
    · rw [Piece.breakMarker?_none hwords] at h
      obtain ⟨passed, front, rfl, hpassed, hfront⟩ := findBelow?_eq_some h
      exact ⟨right :: passed, front, rfl, List.forall_mem_cons.2 ⟨hwords, hpassed⟩, hfront⟩
    · rw [Piece.breakMarker?_append hfront] at h
      obtain rfl := Option.some.inj h
      exact ⟨[], front, rfl, List.forall_mem_nil _, hfront⟩
  | between above below =>
    obtain ⟨passed, front, rfl, hwords⟩ := findBelow?_eq_some h
    exact ⟨passed, front, rfl, hwords⟩
  | halted lines => cases h

theorem Sheet.mem_ahead {S : Sheet} {g : Gap} {ls : List Line} (h : S.find? t = some g) (hS : S.ahead? = some ls) {q : Piece}
    (hq : q ∈ g.ahead.flatten) : q ∈ ls.flatten := by
  obtain ⟨passed, front, hahead, -⟩ := find?_eq_some h
  obtain rfl := Option.some.inj (hS.symm.trans hahead)
  rw [Gap.ahead, List.flatten_cons] at hq
  rw [List.flatten_append, List.flatten_cons, List.append_assoc]
  exact List.mem_append_right _ (List.mem_append_right _ hq)

theorem Ahead.next {S : Sheet} {g : Gap} {ls : List Line} (h : Ahead t as ls) (hfind : S.find? t = some g) (hS : S.ahead? = some ls) :
    Ahead t as g.ahead := by
  obtain ⟨passed, front, hahead, hpassed, hfront⟩ := Sheet.find?_eq_some hfind
  obtain rfl := Option.some.inj (hS.symm.trans hahead)
  have hnames : passed.flatMap (Piece.names as) = [] := List.flatMap_eq_nil_iff.2 fun l hl ↦ Piece.names_words (hpassed l hl)
  refine ⟨?_, ?_⟩
  · have hclosed := h.closed
    rw [List.flatMap_append, hnames, List.nil_append, List.flatMap_cons, Piece.names, List.filterMap_append] at hclosed
    change Reach.Closed Reach.closers (Piece.names as front ++ _ ++ _) at hclosed
    rwa [Piece.names_words hfront] at hclosed
  · have hfirm := List.forall_mem_cons.1 (List.forall_mem_append.1 h.firm).2
    exact List.forall_mem_cons.2 ⟨hfirm.1.suffix (List.suffix_append ..), hfirm.2⟩

/-! ### Scans in succession -/

/-- Whether a manual leaves nothing out that markers ahead say. -/
def Manual.Covers (m : Manual) (as : Aliases) (ls : List Line) : Prop := ∀ p, .marker p ∈ ls.flatten → ∀ c, as.Says p c → c.name ∉ m.omits

/-- Lines ahead that a scan comes through. -/
structure Manual.Clears (m : Manual) (t : Delimiters) (as : Aliases) (ls : List Line) : Prop extends Ahead t as ls where
  sole : ∀ p, .marker p ∈ ls.flatten → as.Sole p
  covers : m.Covers as ls

theorem Gap.Leaves.covers {g : Gap} {S : Sheet} {ls : List Line} (h : g.Leaves t as S) (hS : S.ahead? = some ls)
    (hnames : ∀ name ∈ ElementBinding.names, name ∉ m.omits) (hg : m.Covers as g.ahead) : m.Covers as ls := fun p hp c hsaid ↦ by
  rcases h.old_or_echo hS hp with hold | hecho
  · exact hg p hold c hsaid
  · exact hnames _ (hecho c hsaid)

theorem Gap.mem_ahead (g : Gap) : .marker g.payload ∈ g.ahead.flatten := by simp [ahead]

namespace Draft

variable (hdelimiters : s.toolkit.delimiters = t) (ht : t.Visible) (hclosing : Payload.EndsBracket t.closing.toList)
  (has : ∀ name ∈ ElementBinding.names, as.target name = name) (hm : m.Quiet s.provider) (hnames : ∀ name ∈ ElementBinding.names, name ∉ m.omits)

include hdelimiters ht hclosing has hm hnames

/-- A scan comes to something where no marker ahead says what the manual leaves out. -/
theorem scan_covered (n : ℕ) {D : Draft} (hcovers : ∀ ls, D.sheet.ahead? = some ls → m.Covers as ls) (hk : D.desk.Keeps s.provider as) :
    ∃ x, scan s m n D = some x := by
  induction n generalizing D with
  | zero =>
    cases hfind : D.sheet.find? s.toolkit.delimiters with
    | none => exact ⟨_, scan_done hfind 0⟩
    | some g => exact ⟨_, scan_zero hfind⟩
  | succ n ih =>
    cases hfind : D.sheet.find? s.toolkit.delimiters with
    | none => exact ⟨_, scan_done hfind (n + 1)⟩
    | some g =>
      obtain ⟨_, _, hahead, -⟩ := Sheet.find?_eq_some hfind
      have hg : m.Covers as g.ahead := fun p hp ↦ hcovers _ hahead p (Sheet.mem_ahead hfind hahead hp)
      obtain ⟨x, hvisit, hleaves⟩ := Gap.visit_leaves hdelimiters ht.toProper hclosing has hm hk D.report (hg g.payload g.mem_ahead)
      rw [scan_succ hfind, hvisit]
      rcases x with e | D'
      · exact ⟨_, rfl⟩
      · obtain ⟨hS, hk'⟩ := hleaves D' rfl
        exact ih (fun ls hls ↦ hS.covers hls hnames hg) hk'

omit hdelimiters ht hclosing has hm hnames in
/-- A scan that has come through is at the lines that are put below. -/
theorem alike_follow {D : Draft} {ls : List Line} (hS : D.sheet.ahead? = some ls) (hfind : D.sheet.find? t = none) (more : List Line) :
    Alike t ⟨D.sheet.follow t more, D.desk, D.report⟩ ⟨.between (D.sheet.lines t) more, D.desk, D.report⟩ := by
  refine ⟨?_, D.sheet.lines_follow .., rfl, rfl⟩
  rw [Sheet.find?_follow more hS, hfind]
  rfl

/-- A scan with more lines below comes through to them, and goes on there with what it has come to. -/
theorem scan_follow (hs : s.registry = .builtin) (more : List Line) {E : Draft} (n : ℕ) {D : Draft} {ls : List Line} (hS : D.sheet.ahead? = some ls)
    (hls : m.Clears t as ls) (hk : D.desk.Keeps s.provider as) (hscan : scan s m n ⟨D.sheet.follow t more, D.desk, D.report⟩ = some (.ok E)) :
    ∃ i j, i + j = n ∧ ∃ D', scan s m i D = some (.ok D') ∧ D'.desk.Keeps s.provider as ∧
      scan s m j ⟨.between (D'.sheet.lines t) more, D'.desk, D'.report⟩ = some (.ok E) := by
  subst hdelimiters
  induction n generalizing D ls with
  | zero =>
    cases hfind : D.sheet.find? s.toolkit.delimiters with
    | none => exact ⟨0, 0, rfl, _, scan_done hfind 0, hk, ((alike_follow hS hfind more).scan 0).symm.trans hscan⟩
    | some g =>
      have hfollow := Sheet.find?_follow (t := s.toolkit.delimiters) more hS
      rw [hfind] at hfollow
      rw [scan_zero hfollow] at hscan
      cases hscan
  | succ n ih =>
    cases hfind : D.sheet.find? s.toolkit.delimiters with
    | none => exact ⟨0, n + 1, Nat.zero_add _, _, scan_done hfind 0, hk, ((alike_follow hS hfind more).scan (n + 1)).symm.trans hscan⟩
    | some g =>
      have hfollow := Sheet.find?_follow (t := s.toolkit.delimiters) more hS
      rw [hfind] at hfollow
      rw [scan_succ hfollow] at hscan
      have hahead : Ahead s.toolkit.delimiters as g.ahead := hls.next hfind hS
      have hin : ∀ p, .marker p ∈ g.ahead.flatten → .marker p ∈ ls.flatten := fun p ↦ Sheet.mem_ahead hfind hS
      have hsole := hls.sole g.payload (hin _ g.mem_ahead)
      have hsaid := hls.covers g.payload (hin _ g.mem_ahead)
      rcases hvisit : (g.follow more).visit s m D.desk D.report with _ | ⟨e | D₁⟩ <;> rw [hvisit] at hscan
      · cases hscan
      · cases hscan
      -- the turn is the same without the lines below, and leaves a scan that has not come to its end
      · have hgaps : (Likeness.following s.toolkit.delimiters s.provider as more).gaps (g.follow more) g := ⟨rfl, hahead.ends hsole⟩
        obtain ⟨D₂, hvisit', hsheet, ⟨hdesk, -⟩, hreport⟩ := (hm.agrees_following as more).visit hgaps ⟨rfl, hk⟩ rfl hvisit
        obtain ⟨x, hleft, hleaves⟩ := Gap.visit_leaves rfl ht.toProper hclosing has hm hk D.report hsaid
        obtain ⟨hS₂, hk₂⟩ := hleaves D₂ (Option.some.inj (hleft.symm.trans hvisit'))
        obtain ⟨ls₂, hls₂, hahead₂⟩ := Gap.visit_ahead hs rfl ht hclosing has hm hk hsaid hsole hahead hvisit'
        have hclears : m.Clears s.toolkit.delimiters as ls₂ := by
          refine ⟨hahead₂, fun p hp ↦ ?_, hS₂.covers hls₂ hnames fun p hp ↦ hls.covers p (hin p hp)⟩
          rcases hS₂.old_or_echo hls₂ hp with hold | hecho
          · exact hls.sole p (hin p hold)
          · exact hecho.sole
        have hscan₂ : scan s m n ⟨D₂.sheet.follow s.toolkit.delimiters more, D₂.desk, D₂.report⟩ = some (.ok E) := by
          rw [← hdesk, ← hreport]
          exact hsheet ▸ hscan
        obtain ⟨i, j, rfl, D', hfirst, hk', hsecond⟩ := ih hls₂ hk₂ hclears hscan₂
        exact ⟨i + 1, j, by omega, D', (scan_visit hfind hvisit' i).trans hfirst, hk', hsecond⟩

/-- A scan of lines below others is the scan of those and then, with the desk that it leaves, of the lines by themselves. -/
theorem scan_append (hs : s.registry = .builtin) {n : ℕ} {a b : List Line} (ha : m.Clears t as a) {k : Desk} (hk : k.Keeps s.provider as) {E : Draft}
    (hscan : scan s m n ⟨.between [] (a ++ b), k, .empty⟩ = some (.ok E)) :
    ∃ A, scan s m n ⟨.between [] a, k, .empty⟩ = some (.ok A) ∧ A.desk.Keeps s.provider as ∧ ∀ k', A.desk.Alike s.provider k' →
      ∃ B, scan s m n ⟨.between [] b, k', .empty⟩ = some (.ok B) ∧ E.report = A.report.plus B.report ∧
        E.sheet.lines t = A.sheet.lines t ++ B.sheet.lines t ∧ E.desk.Alike s.provider B.desk := by
  obtain ⟨i, j, hij, A, hA, hkA, hB⟩ := scan_follow hdelimiters ht hclosing has hm hnames hs b n (D := ⟨.between [] a, k, .empty⟩) rfl ha hk hscan
  refine ⟨A, scan_le hA (fun h ↦ by cases h) (by omega), hkA, fun k' hk' ↦ ?_⟩
  have hbeneath : (Likeness.beneath s.provider as (A.sheet.lines t) A.report).Drafts ⟨.between (A.sheet.lines t) b, A.desk, A.report⟩
      ⟨.between [] b, k', .empty⟩ := by
    refine ⟨?_, ⟨hk', hkA.aliases⟩, ?_⟩
    · simp [Likeness.beneath, Sheet.under]
    · simp [Likeness.beneath, Report.plus, Report.empty]
  obtain ⟨j', hj', B, hB', hlines, ⟨hdesk, -⟩, hreport⟩ := (hm.lasts_beneath as (A.sheet.lines t) A.report).scan j hbeneath hB
  exact ⟨B, scan_le hB' (fun h ↦ by cases h) (by omega), hreport, hdelimiters ▸ hlines, hdesk⟩

end Draft

/-! ### Texts -/

def Aliases.said (as : Aliases) (p : List Char) : Commands :=
  match Payload.read p with
  | .ok cs => cs.map as.expand
  | .error _ => []

theorem Aliases.says_iff {p : List Char} {c : Command} : as.Says p c ↔ c ∈ as.said p := by
  rw [Says, said]
  cases Payload.read p with
  | ok cs => exact ⟨fun ⟨_, hread, hc⟩ ↦ Except.ok.inj hread ▸ hc, fun hc ↦ ⟨cs, rfl, hc⟩⟩
  | error e => exact ⟨fun ⟨_, hread, _⟩ ↦ (by cases hread), fun hc ↦ (by cases hc)⟩

theorem Aliases.sole_of_said {p : List Char} (h : (as.said p).length ≤ 1) : as.Sole p := by
  rintro c ⟨cs, hread, hc⟩ -
  rw [said, hread] at h
  match cs, hc with
  | [d], hc => exact ⟨d, hread, (List.mem_singleton.1 hc).symm⟩
  | _ :: _ :: _, _ => simp at h

namespace Renderer

variable {R : Renderer} (hregistry : R.registry = .builtin) (ht : R.settings.delimiters.Visible)
  (hclosing : Payload.EndsBracket R.settings.delimiters.closing.toList) (has : ∀ name ∈ ElementBinding.names, R.aliases.target name = name)

/-- A manual of all commands but those that bring lines in, define aliases or copy elements. -/
theorem exists_quiet (hregistry : R.registry = .builtin) : ∃ m, (R.scanner (.ofDelimiters R.settings.delimiters)).Follows m ∧
    m.omits = ["Import", "Alias", "Clone"] ∧ m.Quiet R.provider := by
  obtain ⟨m, hm, homits, hfair, hmerges⟩ := Scanner.exists_tells (s := R.scanner (.ofDelimiters R.settings.delimiters)) hregistry
    (show "Clone" ∈ ["Import", "Alias", "Clone"] by simp)
  refine ⟨m, hm, homits, fun c hc ↦ hfair c ?_, fun c hc ↦ hmerges c ?_⟩ <;> rintro hname <;> simp [homits, hname] at hc

include hregistry ht hclosing has

/-- A text after another is rendered as the one and the other, each by itself: the lines and what went wrong come one
after the other, what was counted adds up, and the second begins with the model that the first has left. This needs
that the conditions, loops and regions of the first are closed in it, that a marker which opens one of them has no
other command, that no line of the first ends in a region of blanks only which only blanks follow, and that neither
text has a command that brings lines in, defines an alias or copies an element. -/
theorem renderText_append {a b : List (List Char)} (hlines : ∀ l ∈ a ++ b, Text.IsLine l)
    (hcommands : ∀ p, .marker p ∈ (a ++ b).flatMap R.settings.delimiters.pieces → ∀ c, R.aliases.Says p c → c.name ∉ ["Import", "Alias", "Clone"])
    (hsole : ∀ p, .marker p ∈ a.flatMap R.settings.delimiters.pieces → R.aliases.Sole p)
    (hahead : Ahead R.settings.delimiters R.aliases (a.map R.settings.delimiters.pieces)) {w w' : Workshop} (hw : w.services.Coherent R.provider)
    (hw' : w'.services.Coherent R.provider) (M : Model) {report : Report} (hok : (R.renderText w (Text.ofLines (a ++ b)) M).result = .ok report) :
    ∃ ra rb, (R.renderText w (Text.ofLines a) M).result = .ok ra ∧
      (R.renderText w' (Text.ofLines b) (R.renderText w (Text.ofLines a) M).state.model).result = .ok rb ∧ report = ra.plus rb ∧
      (R.renderText w (Text.ofLines (a ++ b)) M).state.document.textLines = (R.renderText w (Text.ofLines a) M).state.document.textLines ++
        (R.renderText w' (Text.ofLines b) (R.renderText w (Text.ofLines a) M).state.model).state.document.textLines ∧
      (R.renderText w (Text.ofLines (a ++ b)) M).state.model =
        (R.renderText w' (Text.ofLines b) (R.renderText w (Text.ofLines a) M).state.model).state.model := by
  let s : Scanner := R.scanner (.ofDelimiters R.settings.delimiters)
  let t : Delimiters := R.settings.delimiters
  obtain ⟨m, hm, homits, hquiet⟩ := exists_quiet hregistry
  have hnames : ∀ name ∈ ElementBinding.names, name ∉ m.omits := by simp [ElementBinding.names, homits]
  have hcovers : m.Covers R.aliases ((a ++ b).map t.pieces) := fun p hp c hsaid ↦ homits ▸ hcommands p hp c hsaid
  have hkeeps : Desk.Keeps R.provider R.aliases ⟨M, R.aliases, w.services⟩ := ⟨rfl, hw⟩
  have hdraft : ∀ (w : Workshop) (M : Model) {ls : List (List Char)}, (∀ l ∈ ls, Text.IsLine l) →
      R.draft w (Text.ofLines ls) M = ⟨.between [] (ls.map t.pieces), ⟨M, R.aliases, w.services⟩, .empty⟩ := fun w M ls hls ↦ by
    rw [draft, Text.lines_ofLines hls]
  have hlinesA : ∀ l ∈ a, Text.IsLine l := fun l hl ↦ hlines l (List.mem_append_left _ hl)
  have hlinesB : ∀ l ∈ b, Text.IsLine l := fun l hl ↦ hlines l (List.mem_append_right _ hl)
  have hclears : m.Clears t R.aliases (a.map t.pieces) := by
    refine ⟨hahead, hsole, fun p hp ↦ hcovers p ?_⟩
    rw [List.map_append, List.flatten_append]
    exact List.mem_append_left _ hp
  -- the run over both comes to what its scan comes to, which comes through the first
  obtain ⟨x, hx⟩ := Draft.scan_covered (s := s) rfl ht hclosing has hquiet hnames R.settings.maxSteps
    (D := ⟨.between [] ((a ++ b).map t.pieces), ⟨M, R.aliases, w.services⟩, .empty⟩) (fun ls hls ↦ Option.some.inj hls ▸ hcovers) hkeeps
  obtain ⟨hresult, hend⟩ := R.renderText_lines hregistry ht hm w (Text.ofLines (a ++ b)) M (hdraft w M hlines ▸ hx)
  obtain ⟨E, rfl, rfl⟩ := except_map_eq_ok.1 (hresult.symm.trans hok)
  obtain ⟨htext, hdesk⟩ := hend E rfl
  rw [List.map_append] at hx
  obtain ⟨A, hA, hkA, hbehind⟩ := Draft.scan_append (s := s) rfl ht hclosing has hquiet hnames hregistry hclears hkeeps hx
  obtain ⟨hresultA, hendA⟩ := R.renderText_lines hregistry ht hm w (Text.ofLines a) M (hdraft w M hlinesA ▸ hA)
  obtain ⟨htextA, hdeskA⟩ := hendA A rfl
  have hmodel : (R.renderText w (Text.ofLines a) M).state.model = A.desk.model := congrArg Desk.model hdeskA
  -- the second finds the model as it was left, and resources as they are
  obtain ⟨B, hB, hreport, hlinesAB, halike⟩ := hbehind ⟨A.desk.model, R.aliases, w'.services⟩ ⟨rfl, hkA.aliases, hkA.coherent, hw'⟩
  obtain ⟨hresultB, hendB⟩ := R.renderText_lines hregistry ht hm w' (Text.ofLines b) A.desk.model (hdraft w' A.desk.model hlinesB ▸ hB)
  obtain ⟨htextB, hdeskB⟩ := hendB B rfl
  rw [hmodel]
  refine ⟨A.report, B.report, hresultA, hresultB, hreport, ?_, ?_⟩
  · rw [htext, htextA, htextB]
    exact hlinesAB
  · calc (R.renderText w (Text.ofLines (a ++ b)) M).state.model = E.desk.model := congrArg Desk.model hdesk
      _ = B.desk.model := halike.model
      _ = (R.renderText w' (Text.ofLines b) A.desk.model).state.model := (congrArg Desk.model hdeskB).symm

omit hregistry ht hclosing has

def opening : List (List Char) := [
  "$\x7bPush key:'x', value:2\x7d$\x7bIgnore\x7d$\x7b$x\x7d$\x7bEndIgnore\x7d".toList,
  "$\x7bIf '$x':2\x7d".toList,
  "kept".toList,
  "$\x7bEndIf\x7d".toList,
  "$\x7bFor value:[7]\x7d$\x7b$index\x7d$\x7bEndFor\x7d".toList]

def sequel : List (List Char) := ["$\x7b$x\x7d".toList]

theorem renderText_append_opening : (plain.renderText plain.workshop (Text.ofLines (opening ++ sequel)) (.ofData (.map []))).state.document.textLines =
    ["$\x7b$x\x7d", "kept", "0", "2"] := by
  obtain ⟨report, hok⟩ : ∃ report, (plain.renderText plain.workshop (Text.ofLines (opening ++ sequel)) (.ofData (.map []))).result = .ok report :=
    except_toBool.1 (by decide +kernel)
  have hclosing : Payload.EndsBracket Delimiters.default.closing.toList := ⟨'\x7d', [], rfl, .inl rfl⟩
  have hlines : ∀ l ∈ opening ++ sequel, Text.IsLine l := by decide +kernel
  have hcommands : ∀ p ∈ Piece.payloads ((opening ++ sequel).flatMap Delimiters.default.pieces),
      ∀ c ∈ Aliases.said [] p, c.name ∉ ["Import", "Alias", "Clone"] := by decide +kernel
  have hsole : ∀ p ∈ Piece.payloads (opening.flatMap Delimiters.default.pieces), (Aliases.said [] p).length ≤ 1 := by decide +kernel
  have hnames : (opening.map Delimiters.default.pieces).flatMap (Piece.names []) = [some "Push", some "Ignore", some "String", some "EndIgnore",
      some "If", some "EndIf", some "For", some "String", some "EndFor"] := by decide +kernel
  have hlast : ∀ l ∈ opening.map Delimiters.default.pieces,
      (l.filter fun q ↦ !Piece.endsCondition [] q).getLast?.all (fun q ↦ !Piece.isBlank .default q) = true := by decide +kernel
  have hahead : Ahead .default [] (opening.map Delimiters.default.pieces) := by
    refine ⟨?_, fun l hl ↦ .of_last (hlast l hl)⟩
    rw [hnames]
    have hloop : Reach.Closed Reach.closers [some "For", some "String", some "EndFor"] :=
      Reach.Closed.block .loops (.other (by decide) .nil) .nil
    have hcondition : Reach.Closed Reach.closers [some "If", some "EndIf", some "For", some "String", some "EndFor"] :=
      Reach.Closed.block .conditions .nil hloop
    have hregion : Reach.Closed Reach.closers (some "Ignore" :: ([some "String"] ++ some "EndIgnore" :: [some "If", some "EndIf", some "For",
      some "String", some "EndFor"])) := .region (by decide) hcondition
    exact .other (by decide) hregion
  have hcoherent : plain.workshop.services.Coherent plain.provider := .ofTtl (fun _ _ _ h ↦ by cases h) _
  obtain ⟨_, _, -, -, -, htext, -⟩ := renderText_append (R := plain) rfl Delimiters.visible_default hclosing (by decide) hlines
    (fun p hp c hsaid ↦ hcommands p (List.mem_filterMap.2 ⟨_, hp, rfl⟩) c (Aliases.says_iff.1 hsaid))
    (fun p hp ↦ Aliases.sole_of_said (hsole p (List.mem_filterMap.2 ⟨_, hp, rfl⟩))) hahead hcoherent hcoherent (.ofData (.map [])) hok
  rw [htext]
  decide +kernel

def hollow : List Char := "$\x7bIgnore\x7d $\x7bEndIgnore\x7d ".toList

/-- Behind a line that ends in a region of blanks only, which blanks follow, nothing is rendered. -/
theorem renderText_append_hollow :
    (plain.renderText plain.workshop (Text.ofLines [hollow]) (.ofData (.map [("a", .leaf (.str "x"))]))).state.document.textLines = [] ∧
      (plain.renderText plain.workshop (Text.ofLines ["$\x7b@a\x7d".toList]) (.ofData (.map [("a", .leaf (.str "x"))]))).state.document.textLines = ["x"] ∧
      (plain.renderText plain.workshop (Text.ofLines [hollow, "$\x7b@a\x7d".toList]) (.ofData (.map [("a", .leaf (.str "x"))]))).state.document.textLines =
        ["$\x7b@a\x7d"] := by
  decide +kernel

end Renderer

end Stencil
