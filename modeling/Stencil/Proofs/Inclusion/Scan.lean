import Stencil.Proofs.Run.Fair
import Stencil.Proofs.Run.Likeness
/-!
Scans of sheets on which lines are still to be brought in, and of the same sheets with the lines written out.
Wherever a line stands on the one that is one with a marker, the other has given lines instead; what a scan has
passed is the same on both, and whatever it deletes, copies or searches through it deletes, copies or searches
through on both. Both scans meet the same markers and come to the same at them; the first meets the markers of
the lines to be brought in besides, and these leave it where the second has been all along.
-/

namespace Stencil

section Sheets

variable {t : Delimiters} {p : List Char} {F : List Line}

/-- Lines some of which are one with a marker, and the same lines with others in the place of these. -/
abbrev Includes (p : List Char) (F : List Line) : List Line → List Line → Prop := Swaps [[.marker p]] F

/-! ### Searches -/

inductive Reach.Includes (p : List Char) (F : List Line) : Reach → Reach → Prop where
  | here (mid rest : Line) : Reach.Includes p F (.here mid rest) (.here mid rest)
  | there (first front rest : Line) {mid mid' below below' : List Line} : Stencil.Includes p F mid mid' →
      Stencil.Includes p F below below' → Reach.Includes p F (.there first mid front rest below) (.there first mid' front rest below')

namespace Reach

open Selection (Nesting)

variable {as : Aliases} {openers : List String} {closer : String}

/-- Where a search along lines ends: in the same line of both, with related lines before and behind it. -/
inductive Cuts (p : List Char) (F : List Line) : List Line × Line × Line × List Line → List Line × Line × Line × List Line → Prop where
  | mk (front rest : Line) {mid mid' below below' : List Line} : Stencil.Includes p F mid mid' → Stencil.Includes p F below below' →
      Cuts p F (mid, front, rest, below) (mid', front, rest, below')

variable (hmarker : Level as openers closer [[.marker p]]) (hF : Level as openers closer F)

include hmarker hF

theorem alongLines_includes {ls ls' : List Line} (h : Stencil.Includes p F ls ls') (n : Nesting) :
    Option.Rel (Cuts p F) (alongLines as openers closer n ls) (alongLines as openers closer n ls') := by
  induction h generalizing n with
  | nil => exact .none
  | @same l ls ls' h ih =>
    rw [alongLines, alongLines]
    cases alongLine as openers closer n l with
    | inl cut => exact .some (.mk cut.1 cut.2 .nil h)
    | inr n' =>
      refine rel_map ?_ (ih n')
      rintro _ _ ⟨front, rest, hmid, hbelow⟩
      exact .mk front rest (.same l hmid) hbelow
  | @here ls ls' h ih =>
    -- neither the marker nor the lines are of any consequence for the nesting behind them
    rw [hmarker, hF]
    refine rel_map ?_ (ih n)
    rintro _ _ ⟨front, rest, hmid, hbelow⟩
    exact .mk front rest (.here hmid) hbelow

theorem seek?_includes (n : Nesting) (right : Line) {ls ls' : List Line} (h : Stencil.Includes p F ls ls') :
    Option.Rel (Reach.Includes p F) (seek? as openers closer n right ls) (seek? as openers closer n right ls') := by
  rw [seek?, seek?]
  cases alongLine as openers closer n right with
  | inl cut => exact .some (.here cut.1 cut.2)
  | inr n' =>
    refine rel_map ?_ (alongLines_includes hmarker hF h n')
    rintro _ _ ⟨front, rest, hmid, hbelow⟩
    exact .there right front rest hmid hbelow

end Reach

/-! ### Sheets -/

inductive Sheet.Includes (p : List Char) (F : List Line) : Sheet → Sheet → Prop where
  | within (above : List String) (left : List Content) (right : Line) {below below' : List Line} : Stencil.Includes p F below below' →
      Sheet.Includes p F (.within above left right below) (.within above left right below')
  | between (above : List String) {below below' : List Line} : Stencil.Includes p F below below' →
      Sheet.Includes p F (.between above below) (.between above below')

inductive Gap.Includes (p : List Char) (F : List Line) : Gap → Gap → Prop where
  | mk (above : List String) (left : List Content) (payload : List Char) (right : Line) {below below' : List Line} :
      Stencil.Includes p F below below' → Gap.Includes p F ⟨above, left, payload, right, below⟩ ⟨above, left, payload, right, below'⟩

namespace Gap.Includes

variable {g g' : Gap}

theorem passed (h : g.Includes p F g') (c : Content) : (g.passed c).Includes p F (g'.passed c) := by
  cases h with
  | mk above left payload right hbelow => exact .within above (left ++ [c]) right hbelow

theorem removed (h : g.Includes p F g') : (g.removed t).Includes p F (g'.removed t) := by
  cases h with
  | mk above left payload right hbelow =>
    rw [Gap.removed, Gap.removed]
    dsimp only
    split
    · exact .between above hbelow
    · exact .within above left right hbelow

theorem merged (h : g.Includes p F g') (lines : List Line) : (g.merged t lines).Includes p F (g'.merged t lines) := by
  rw [Gap.merged, Gap.merged]
  split
  · exact h.removed
  · cases h with
    | mk above left payload right hbelow => exact .between above (.prepend _ (.prepend _ hbelow))

theorem opened (h : g.Includes p F g') {R R' : Reach} (hR : R.Includes p F R') : (g.opened t R).Includes p F (g'.opened t R') := by
  cases h with
  | mk above left payload right hbelow =>
    cases hR with
    | here mid rest => exact Gap.Includes.removed (.mk above left payload (mid ++ rest) hbelow)
    | there first front rest hmid hbelow' =>
      exact Gap.Includes.removed (.mk above left payload first (hmid.append (.prepend _ hbelow')))

theorem replicated (h : g.Includes p F g') (markers : List (Line × Line)) {R R' : Reach} (hR : R.Includes p F R') :
    (g.replicated markers R).Includes p F (g'.replicated markers R') := by
  cases h with
  | mk above left payload right hbelow =>
    cases hR with
    | here mid rest => exact .within above left _ hbelow
    | there first front rest hmid hbelow' =>
      exact .between _ (.append (.flatMap_of (fun m ↦ .same _ (hmid.append (.refl _))) markers) (.prepend _ hbelow'))

end Gap.Includes

end Sheets

/-! ### Scans -/

variable {s : Scanner} {m : Manual} {as : Aliases} {p : List Char} {F : List Line}

/-- Scans up to the same place, which have found the same wrong. -/
def Likeness.inclusion (provider : Provider) (as : Aliases) (p : List Char) (F : List Line) : Likeness where
  sheets := Sheet.Includes p F
  gaps := Gap.Includes p F
  reaches := Reach.Includes p F
  desks k k' := k.Alike provider k' ∧ k.aliases = as
  reports r r' := r.findings = r'.findings
  lines := Eq

/-- A marker brings lines in wherever it is alone in its line. The search for the end of a block passes it
and the lines alike, and what else the manual tells does not feel what is kept of resources. -/
structure Manual.Brings (s : Scanner) (m : Manual) (as : Aliases) (p : List Char) (F : List Line) : Prop where
  ignore : "Ignore" ∈ m.omits
  fair : ∀ c : Command, c.name ∉ m.omits → Desk.Fairly s.provider (m.tells c)
  marker : ∀ {openers closer}, Reach.Pairs openers closer → Reach.Level as openers closer [[.marker p]]
  lines : ∀ {openers closer}, Reach.Pairs openers closer → Reach.Level as openers closer F
  turn : ∀ {above : List String} {below : List Line} {k : Desk} {r : Report} {D : Draft}, k.aliases = as →
    k.services.Coherent s.provider → Gap.visit s m ⟨above, [], p, [], below⟩ k r = some (.ok D) →
    D.sheet = .between above (F ++ below) ∧ k.Alike s.provider D.desk ∧ D.report.findings = r.findings

namespace Manual.Brings

variable {k k' : Desk} {r r' : Report} {below below' : List Line} (hbelow : Includes p F below below')

include hbelow

theorem meets_within (hmeets : ∀ above, (Likeness.inclusion s.provider as p F).Meets s m ⟨.between above below, k, r⟩ ⟨.between above below', k', r'⟩)
    (above : List String) (left : List Content) (right : Line) :
    (Likeness.inclusion s.provider as p F).Meets s m ⟨.within above left right below, k, r⟩ ⟨.within above left right below', k', r'⟩ := by
  rcases Piece.break_cases right with hwords | ⟨front, q, back, hfront, rfl⟩
  · exact (hmeets _).of_alike (Draft.alike_line hwords ..) (Draft.alike_line hwords ..)
  · exact .marker (Sheet.find?_within _ hfront ..) (Sheet.find?_within _ hfront ..) (.mk _ _ _ _ hbelow)

variable (hm : m.Brings s as p F) (hk : (Likeness.inclusion s.provider as p F).desks k k')
  (hr : (Likeness.inclusion s.provider as p F).reports r r')

include hm hk hr

theorem meets_between (above : List String) :
    (Likeness.inclusion s.provider as p F).Meets s m ⟨.between above below, k, r⟩ ⟨.between above below', k', r'⟩ := by
  induction hbelow generalizing above with
  | nil => exact .nothing rfl rfl rfl
  | @same l ls ls' h ih =>
    have hwithin := meets_within (m := m) h ih above [] l
    exact hwithin.of_alike (Draft.alike_enter ..) (Draft.alike_enter ..)
  | @here ls ls' h ih =>
    -- the other scan is where this one comes to when it has brought the lines in
    refine .alone (g := ⟨above, [], p, [], ls⟩) rfl fun D₁ hvisit ↦ ⟨D₁, _, ⟨rfl, rfl, rfl, rfl⟩, ⟨rfl, rfl, rfl, rfl⟩, ?_⟩
    obtain ⟨hdesk, haliases⟩ := hk
    obtain ⟨hsheet, hdesk₁, hfindings⟩ := hm.turn haliases hdesk.left hvisit
    have hincludes : D₁.sheet.Includes p F (.between above (F ++ ls')) := hsheet ▸ .between above (.prepend F h)
    exact ⟨hincludes, ⟨hdesk₁.symm.trans hdesk, hdesk₁.aliases ▸ haliases⟩, hfindings.trans hr⟩

omit hk hr hbelow in
theorem meets {D D' : Draft} (h : (Likeness.inclusion s.provider as p F).Drafts D D') :
    (Likeness.inclusion s.provider as p F).Meets s m D D' := by
  obtain ⟨S, k, r⟩ := D
  obtain ⟨S', k', r'⟩ := D'
  obtain ⟨hsheet, hk, hr⟩ := h
  have hsheet : S.Includes p F S' := hsheet
  cases hsheet with
  | within above left right hbelow => exact meets_within hbelow (meets_between hbelow hm hk hr) above left right
  | between above hbelow => exact meets_between hbelow hm hk hr above

omit hk hr hbelow in
/-- A scan that brings lines in goes as the scan of a sheet with the lines written out. -/
theorem lasts : (Likeness.inclusion s.provider as p F).Lasts s m as where
  payload hg := by cases hg; rfl
  passed hg c := hg.passed c
  removed hg := hg.removed
  merged hg ls := hg.merged ls
  opened hg hR := hg.opened hR
  replicated hg hR markers := hg.replicated markers hR
  -- a region that is left out cannot be followed, since it may end in lines that are still to be brought in
  skipped _ _ _ homit := absurd hm.ignore homit
  sought {g g' c closer} hg _ hpairs := by
    cases hg with
    | mk above left payload right hbelow => exact Reach.seek?_includes (hm.marker hpairs) (hm.lines hpairs) ⟨0, false⟩ right hbelow
  model hk := hk.1.model
  aliases hk := ⟨hk.2, hk.1.aliases ▸ hk.2⟩
  told hk c homit := by
    obtain ⟨hresult, hdesk, haliases⟩ := hm.fair c homit _ _ hk.1
    exact ⟨hresult, hdesk, haliases.trans hk.2⟩
  executed hr := hr
  ignored hr := hr
  found hr f := congrArg (· ++ [f]) hr
  meets := hm.meets

end Manual.Brings

end Stencil
