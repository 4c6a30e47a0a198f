import Stencil.Proofs.Payload.Writing
import Stencil.Proofs.Run.Likeness
import Stencil.Proofs.Succession.Closed
/-!
What lies ahead of a scan. A turn takes lines and markers from it, or puts copies of them there between markers that a
loop writes. Where its blocks are closed they stay so, and the scan does not come to its end before it has come through.
-/

namespace Stencil

open Selection (Nesting)

variable {t : Delimiters} {as : Aliases}

/-! ### The markers of copies -/

/-- The names of the commands that a loop writes. -/
def ElementBinding.names : List String := ["Push", "Pop", "Model"]

/-- A marker that a loop wrote says nothing else. -/
def Aliases.Echo (as : Aliases) (p : List Char) : Prop := ∀ c, as.Says p c → c.name ∈ ElementBinding.names

inductive Aliases.Frames (as : Aliases) : Line × Line → Prop where
  | mk {p q : List Char} : as.Echo p → as.Echo q → Frames as ([.marker p], [.marker q])

theorem Aliases.Echo.name {p : List Char} (h : as.Echo p) {name : String} (hname : as.nameOf? p = some name) : name ∈ ElementBinding.names := by
  obtain ⟨c, hsaid, rfl⟩ := as.says_of_nameOf? hname
  exact h c hsaid

theorem ElementBinding.isName {name : String} (h : name ∈ names) : Payload.IsName name.toList := by
  simp only [names, List.mem_cons, List.not_mem_nil, or_false] at h
  rcases h with rfl | rfl | rfl
  · exact ⟨⟨'P', ['u', 's', 'h'], by decide, rfl, List.all_eq_true.1 rfl⟩, by decide⟩
  · exact ⟨⟨'P', ['o', 'p'], by decide, rfl, List.all_eq_true.1 rfl⟩, by decide⟩
  · exact ⟨⟨'M', ['o', 'd', 'e', 'l'], by decide, rfl, List.all_eq_true.1 rfl⟩, by decide⟩

theorem ElementBinding.markers_names (b : ElementBinding) (index : String) (i : ℕ) :
    ((b.markers index i).opening ≠ [] ∧ ∀ c ∈ (b.markers index i).opening, c.name ∈ names) ∧
      (b.markers index i).closing ≠ [] ∧ ∀ c ∈ (b.markers index i).closing, c.name ∈ names := by
  cases b with
  | ofVariable name source =>
    cases source <;> simp [markers, pushElement, pushIndex, release, Command.bare, Command.put, names]
  | ofCursor list restore => simp [markers, moveTo, pushIndex, release, Command.bare, Command.put, names]

section Copies

variable (ht : t.Proper) (hclosing : Payload.EndsBracket t.closing.toList)
  (has : ∀ name ∈ ElementBinding.names, as.target name = name)

include ht hclosing has

theorem Delimiters.echo_marker {cs : Commands} (hne : cs ≠ []) (hcs : ∀ c ∈ cs, c.name ∈ ElementBinding.names) :
    ∃ p, t.pieces (t.marker cs).toList = [.marker p] ∧ as.Echo p := by
  have hnames : ∀ c ∈ cs, Payload.IsName c.name.toList := fun c hc ↦ ElementBinding.isName (hcs c hc)
  have hcut := t.cut?_enclose_level hclosing (Payload.level_write fun c hc ↦ (hnames c hc).1) []
  rw [List.append_nil] at hcut
  refine ⟨Payload.write cs, ?_, ?_⟩
  · rw [marker, String.toList_ofList, pieces_cut ht hcut]
    rfl
  · rintro c ⟨ds, hread, hc⟩
    obtain ⟨d, hd, rfl⟩ := List.mem_map.1 hc
    have hname : d.name ∈ cs.map Command.name := by
      rw [← Payload.read_write_names hne hnames hread]
      exact List.mem_map_of_mem hd
    obtain ⟨c, hc, hname⟩ := List.mem_map.1 hname
    rw [← as.target_eq, ← hname, has _ (hcs c hc)]
    exact hcs c hc

theorem Gap.frames_loopMarkers {c : Command} {k : Desk} {ms : List Area.CopyMarkers} (h : loopMarkers c k = .ok ms) :
    ∀ m ∈ ms.map (·.lines t), as.Frames m := by
  obtain ⟨source?, -, h⟩ := except_bind_eq_ok.1 h
  rcases source? with _ | source
  · cases h
  obtain ⟨_, -, h⟩ := except_bind_eq_ok.1 h
  obtain ⟨copies, -, h⟩ := except_bind_eq_ok.1 h
  obtain ⟨binding, -, h⟩ := except_bind_eq_ok.1 h
  obtain rfl := Except.ok.inj h
  intro m hm
  rw [List.map_map] at hm
  obtain ⟨i, -, rfl⟩ := List.mem_map.1 hm
  obtain ⟨⟨hopening, hopens⟩, hne, hcloses⟩ := binding.markers_names ((c.str? "index").getD "index") i
  obtain ⟨p, hp, hecho⟩ := Delimiters.echo_marker ht hclosing has hopening hopens
  obtain ⟨q, hq, hecho'⟩ := Delimiters.echo_marker ht hclosing has hne hcloses
  rw [Function.comp_apply, Area.CopyMarkers.lines, hp, hq]
  exact .mk hecho hecho'

end Copies

/-! ### Turns -/

structure Desk.Keeps (p : Provider) (as : Aliases) (k : Desk) : Prop where
  aliases : k.aliases = as
  coherent : k.services.Coherent p

/-- A manual that tells neither of aliases nor of lines that are brought in. -/
structure Manual.Quiet (p : Provider) (m : Manual) : Prop where
  fair : ∀ c : Command, c.name ∉ m.omits → Desk.Fairly p (m.tells c)
  merges : ∀ c : Command, c.name ∉ m.omits → ∀ k deed, (m.tells c k).1 = .ok deed → deed.merges = false

/-- What a turn at a marker may leave of the sheet. -/
inductive Gap.Leaves (t : Delimiters) (as : Aliases) (g : Gap) : Sheet → Prop where
  | passed (c : Content) : Leaves t as g (g.passed c)
  | removed : Leaves t as g (g.removed t)
  | opened {c : Command} {R : Reach} : as.Says g.payload c → c.name = "If" →
      Reach.seek? as ["If"] "EndIf" ⟨0, false⟩ g.right g.below = some R → Leaves t as g (g.opened t R)
  | replicated {c : Command} {closer : String} {R : Reach} {ms : List (Line × Line)} : as.Says g.payload c → Reach.Pairs [c.name] closer →
      Reach.seek? as [c.name] closer ⟨0, false⟩ g.right g.below = some R → (∀ m ∈ ms, as.Frames m) → Leaves t as g (g.replicated ms R)
  | skipped {c : Command} : as.Says g.payload c → c.name = "Ignore" →
      Leaves t as g (g.skipped t (Reach.seek? as [] "EndIgnore" ⟨0, false⟩ g.right g.below))

theorem Manual.Quiet.keeps {p : Provider} {m : Manual} {k : Desk} (hm : m.Quiet p) (hk : k.Keeps p as) {c : Command} (hc : c.name ∉ m.omits) :
    (m.tells c k).2.Keeps p as := by
  obtain ⟨_, hdesk, haliases⟩ := hm.fair c hc k k (.refl hk.coherent)
  exact ⟨haliases.trans hk.aliases, hdesk.left⟩

namespace Gap

variable {s : Scanner} {m : Manual} {g : Gap} {k : Desk} {r : Report} (hdelimiters : s.toolkit.delimiters = t) (ht : t.Proper)
  (hclosing : Payload.EndsBracket t.closing.toList) (has : ∀ name ∈ ElementBinding.names, as.target name = name) (hm : m.Quiet s.provider)

theorem reach_eq_ok {c : Command} {openers : List String} {closer : String} {R : Reach} (h : g.reach c k openers closer = .ok R) :
    Reach.seek? k.aliases openers closer ⟨0, false⟩ g.right g.below = some R := by
  rw [reach] at h
  split at h
  · next hsought => rw [hsought, Except.ok.inj h]
  · cases h

include ht hclosing has hm

theorem answer_leaves (hk : k.Keeps s.provider as) {c : Command} (hsaid : as.Says g.payload c) (hc : c.name ∉ m.omits) :
    ∃ x k', g.answer m t c k = some (x, k') ∧ k'.Keeps s.provider as ∧ ∀ S, x = .ok (.moved S) → g.Leaves t as S := by
  rw [answer, if_neg hc]
  by_cases hif : c.name = "If"
  · rw [if_pos hif]
    refine ⟨_, _, rfl, hk, fun S hS ↦ ?_⟩
    obtain ⟨condition, -, hS⟩ := except_bind_eq_ok.1 hS
    obtain ⟨R, hR, hS⟩ := except_bind_eq_ok.1 hS
    have hsought := hk.aliases ▸ reach_eq_ok hR
    cases Except.ok.inj hS
    split
    · exact .opened hsaid hif hsought
    · exact .replicated hsaid (hif ▸ .conditions) (hif ▸ hsought) (List.forall_mem_nil _)
  rw [if_neg hif]
  by_cases hfor : c.name = "For"
  · rw [if_pos hfor]
    refine ⟨_, _, rfl, hk, fun S hS ↦ ?_⟩
    obtain ⟨ms, hms, hS⟩ := except_bind_eq_ok.1 hS
    obtain ⟨R, hR, hS⟩ := except_bind_eq_ok.1 hS
    have hsought := hk.aliases ▸ reach_eq_ok hR
    cases Except.ok.inj hS
    exact .replicated hsaid (hfor ▸ .loops) (hfor ▸ hsought) (frames_loopMarkers ht hclosing has hms)
  rw [if_neg hfor]
  by_cases hignore : c.name = "Ignore"
  · rw [if_pos hignore]
    refine ⟨_, _, rfl, hk, fun S hS ↦ ?_⟩
    cases Except.ok.inj hS
    rw [hk.aliases]
    exact .skipped hsaid hignore
  rw [if_neg hignore]
  refine ⟨_, _, rfl, hm.keeps hk hc, fun S hS ↦ ?_⟩
  obtain ⟨deed, hdeed, hS⟩ := except_map_eq_ok.1 hS
  cases deed with
  | leave => cases hS
  | consume => cases hS
  | write text =>
    cases hS
    exact .passed _
  | remove =>
    cases hS
    exact .removed
  | insert image =>
    cases hS
    exact .passed _
  | merge text bounds => cases hm.merges c hc k _ hdeed

include hdelimiters

theorem carryOut_leaves (hk : k.Keeps s.provider as) (r : Report) {cs : Commands} (hcs : ∀ c ∈ cs, as.Says g.payload c ∧ c.name ∉ m.omits) :
    ∃ x, g.carryOut s m cs k r = some x ∧ ∀ D, x = .ok D → g.Leaves t as D.sheet ∧ D.desk.Keeps s.provider as := by
  have hnoted : ∀ {S : Sheet} {k : Desk}, g.Leaves t as S → k.Keeps s.provider as → ∀ (x : Except RunError Report) D,
      x.map (fun r ↦ (⟨S, k, r⟩ : Draft)) = .ok D → g.Leaves t as D.sheet ∧ D.desk.Keeps s.provider as := fun hS hk x D hD ↦ by
    obtain ⟨_, -, rfl⟩ := except_map_eq_ok.1 hD
    exact ⟨hS, hk⟩
  have hkept : g.Leaves t as (g.kept s.toolkit.delimiters) := .passed _
  induction cs generalizing k with
  | nil =>
    refine ⟨_, rfl, fun D hD ↦ ?_⟩
    cases hD
    exact ⟨hkept, hk⟩
  | cons c rest ih =>
    obtain ⟨⟨hsaid, hc⟩, hrest⟩ := List.forall_mem_cons.1 hcs
    obtain ⟨x, k', hanswer, hk', hmoved⟩ := answer_leaves ht hclosing has hm hk hsaid hc
    rw [carryOut]
    cases s.registry.get? c.name with
    | none => exact ⟨_, rfl, fun D hD ↦ by cases hD⟩
    | some handler =>
      rw [hdelimiters, hanswer]
      dsimp only
      rcases x with e | u
      · exact ⟨_, rfl, fun D hD ↦ hnoted hkept hk' _ D (hdelimiters ▸ hD)⟩
      cases u with
      | ignored =>
        refine ⟨_, rfl, fun D hD ↦ ?_⟩
        cases hD
        exact ⟨.passed _, hk'⟩
      | consumed =>
        dsimp only
        split
        · refine ⟨_, rfl, fun D hD ↦ ?_⟩
          cases hD
          exact ⟨.removed, hk'⟩
        · exact ih hk' hrest
      | moved S =>
        dsimp only
        split
        · refine ⟨_, rfl, fun D hD ↦ ?_⟩
          cases hD
          exact ⟨hmoved S rfl, hk'⟩
        · exact ⟨_, rfl, hnoted (hmoved S rfl) hk' _⟩

/-- A marker that says nothing the manual leaves out is carried out, and leaves the sheet in one of these ways. -/
theorem visit_leaves (hk : k.Keeps s.provider as) (r : Report) (hsaid : ∀ c, as.Says g.payload c → c.name ∉ m.omits) :
    ∃ x, g.visit s m k r = some x ∧ ∀ D, x = .ok D → g.Leaves t as D.sheet ∧ D.desk.Keeps s.provider as := by
  rw [visit]
  cases hread : Payload.read g.payload with
  | error e =>
    refine ⟨_, rfl, fun D hD ↦ ?_⟩
    obtain ⟨_, -, rfl⟩ := except_map_eq_ok.1 hD
    exact ⟨.passed _, hk⟩
  | ok cs =>
    dsimp only
    rw [dispatch]
    cases (cs.map k.aliases.expand).find? fun c ↦ !s.registry.has c.name with
    | none => exact carryOut_leaves hdelimiters ht hclosing has hm hk r fun c hc ↦
        have hsaid' : as.Says g.payload c := ⟨cs, hread, hk.aliases ▸ hc⟩
        ⟨hsaid', hsaid c hsaid'⟩
    | some c =>
      dsimp only
      cases s.settings.unknownCommand with
      | fail => exact ⟨_, rfl, fun D hD ↦ by cases hD⟩
      | ignore =>
        refine ⟨_, rfl, fun D hD ↦ ?_⟩
        cases hD
        exact ⟨.passed _, hk⟩

end Gap

/-! ### Markers ahead -/

/-- The lines ahead of a scan that is not at its end. -/
def Sheet.ahead? : Sheet → Option (List Line)
  | within _ _ right below => some (right :: below)
  | between _ below => some below
  | halted _ => none

/-- A marker with all that is ahead of it. -/
def Gap.ahead (g : Gap) : List Line := (.marker g.payload :: g.right) :: g.below

theorem Piece.kept_subset (l : Line) : (kept t l).flatten ⊆ l := by
  rw [kept]
  split <;> simp

theorem Sheet.part_subset (l : Line) : (part l).flatten ⊆ l := by
  rw [part]
  split <;> simp

theorem Gap.ahead?_removed (g : Gap) : (g.removed t).ahead? = some (Piece.kept t g.right ++ g.below) ∨
    (g.removed t).ahead? = some (g.right :: g.below) := by
  rw [removed, Piece.kept]
  cases hleft : g.left.all Content.isBlank <;> cases hright : g.right.all (Piece.isBlank t) <;> simp [Sheet.ahead?]

theorem Gap.ahead?_skipped {g : Gap} {R : Reach} {ls : List Line} (h : (g.skipped t (some R)).ahead? = some ls) : ls <:+ R.beyond g.below := by
  cases R with
  | here mid rest =>
    rw [skipped] at h
    split_ifs at h
    · exact Option.some.inj h ▸ List.suffix_cons ..
    · cases h
    · exact Option.some.inj h ▸ List.suffix_rfl
  | there first mid front rest below =>
    rw [skipped] at h
    split at h
    · exact Option.some.inj h ▸ List.suffix_cons ..
    · exact Option.some.inj h ▸ List.suffix_rfl

theorem Aliases.Frames.echo {m : Line × Line} (h : as.Frames m) {p : List Char} (hp : .marker p ∈ m.1 ++ m.2) : as.Echo p := by
  cases h with
  | mk hopens hcloses =>
    simp only [List.cons_append, List.nil_append, List.mem_cons, Piece.marker.injEq, List.not_mem_nil, or_false] at hp
    rcases hp with rfl | rfl
    · exact hopens
    · exact hcloses

namespace Gap

variable {g : Gap} {R : Reach} {ls : List Line} {q : Piece}

theorem mem_of_removed (h : (g.removed t).ahead? = some ls) (hq : q ∈ ls.flatten) : q ∈ (g.right :: g.below).flatten := by
  rcases g.ahead?_removed (t := t) with heq | heq <;> obtain rfl := Option.some.inj (heq.symm.trans h)
  · rw [List.flatten_append, List.mem_append] at hq
    exact List.mem_append.2 (hq.imp_left fun hq ↦ Piece.kept_subset g.right hq)
  · exact hq

theorem mem_of_opened (h : (g.opened t R).ahead? = some ls) (hq : q ∈ ls.flatten) : q ∈ (R.within ++ R.beyond g.below).flatten := by
  cases R with
  | here mid rest =>
    rw [opened] at h
    simpa [Reach.within, Reach.beyond] using mem_of_removed h hq
  | there first mid front rest below =>
    rw [opened] at h
    have hmem := mem_of_removed h hq
    have hkept := @Piece.kept_subset t (front ++ rest) q
    simp only [Reach.within, Reach.beyond, List.flatten_append, List.flatten_cons, List.flatten_nil, List.append_nil, List.mem_append] at hmem hkept ⊢
    tauto

/-- The copies of a block are its own pieces, and the markers around them. -/
theorem mem_of_replicated {ms : List (Line × Line)} (h : (g.replicated ms R).ahead? = some ls) (hq : q ∈ ls.flatten) :
    q ∈ (R.within ++ R.beyond g.below).flatten ∨ ∃ m ∈ ms, q ∈ m.1 ++ m.2 := by
  cases R with
  | here mid rest =>
    obtain rfl := Option.some.inj h
    simp only [Reach.within, Reach.beyond, List.flatten_append, List.flatten_cons, List.flatten_nil, List.append_nil, List.mem_append,
      List.mem_flatMap] at hq ⊢
    rcases hq with (⟨m, hm, hq⟩ | hq) | hq
    · rcases hq with hq | hq | hq
      · exact .inr ⟨m, hm, .inl hq⟩
      · tauto
      · exact .inr ⟨m, hm, .inr hq⟩
    · tauto
    · tauto
  | there first mid front rest below =>
    obtain rfl := Option.some.inj h
    have hpart := @Sheet.part_subset rest q
    simp only [List.flatten_append, List.mem_append] at hq
    rcases hq with hq | hq | hq
    · obtain ⟨l, hl, hq⟩ := List.mem_flatten.1 hq
      obtain ⟨m, hm, hl⟩ := List.mem_flatMap.1 hl
      have hcopy : q ∈ m.1 ++ m.2 ∨ q ∈ (first :: (mid ++ [front])).flatten := by
        have hin : q ∈ ((m.1 ++ first) :: (mid ++ [front ++ m.2])).flatten := List.mem_flatten.2 ⟨l, hl, hq⟩
        simp only [List.flatten_append, List.flatten_cons, List.flatten_nil, List.append_nil, List.mem_append] at hin ⊢
        tauto
      rcases hcopy with hmarker | hcopy
      · exact .inr ⟨m, hm, hmarker⟩
      · exact .inl (List.flatten_append ▸ List.mem_append_left _ hcopy)
    · exact .inl (by simp [Reach.beyond, hpart hq])
    · exact .inl (by simp only [Reach.beyond, List.flatten_append, List.flatten_cons, List.mem_append]; tauto)

theorem mem_of_skipped (h : (g.skipped t (some R)).ahead? = some ls) (hq : q ∈ ls.flatten) : q ∈ (R.within ++ R.beyond g.below).flatten := by
  obtain ⟨l, hl, hq⟩ := List.mem_flatten.1 hq
  exact List.mem_flatten.2 ⟨l, List.mem_append_right _ ((ahead?_skipped h).subset hl), hq⟩

/-- A marker ahead was there before, or a loop wrote it. -/
theorem Leaves.old_or_echo {S : Sheet} (h : g.Leaves t as S) (hS : S.ahead? = some ls) {p : List Char} (hp : .marker p ∈ ls.flatten) :
    .marker p ∈ g.ahead.flatten ∨ as.Echo p := by
  -- no turn looks behind the marker for what it leaves ahead
  suffices hbehind : .marker p ∈ (g.right :: g.below).flatten ∨ as.Echo p from
    hbehind.imp_left (List.mem_cons_of_mem _)
  have hsevered : ∀ {openers : List String} {closer : String} {R : Reach}, Reach.seek? as openers closer ⟨0, false⟩ g.right g.below = some R →
      (R.within ++ R.beyond g.below).flatten ⊆ (g.right :: g.below).flatten := fun hR ↦ (Reach.severs_of_seek? hR).elim fun _ h ↦ h.subset
  cases h with
  | passed c =>
    obtain rfl := Option.some.inj hS
    exact .inl hp
  | removed => exact .inl (mem_of_removed hS hp)
  | opened _ _ hR => exact .inl (hsevered hR (mem_of_opened hS hp))
  | replicated _ _ hR hms =>
    rcases mem_of_replicated hS hp with hold | ⟨m, hm, hmarker⟩
    · exact .inl (hsevered hR hold)
    · exact .inr ((hms m hm).echo hmarker)
  | skipped _ _ =>
    cases hR : Reach.seek? as [] "EndIgnore" ⟨0, false⟩ g.right g.below with
    | none =>
      rw [hR] at hS
      cases hS
    | some R =>
      rw [hR] at hS
      exact .inl (hsevered hR (mem_of_skipped hS hp))

end Gap

/-! ### Lines ahead -/

namespace Piece

variable (t as)

/-- A region with nothing in it but blanks, and nothing behind it but blanks. -/
def Hollow (l : Line) : Prop := ∃ p mid q rest, l = .marker p :: (mid ++ .marker q :: rest) ∧ as.nameOf? p = some "Ignore" ∧
  as.nameOf? q = some "EndIgnore" ∧ mid.all (isBlank t) = true ∧ rest.all (isBlank t) = true ∧ rest ≠ []

def endsCondition (q : Piece) : Bool := q.name? as == some (some "EndIf")

/-- A line that does not end in a hollow region, nor would when ends of conditions are taken out of it. -/
def Firm (l : Line) : Prop := ∀ l', l' <:+ l.filter (fun q ↦ !endsCondition as q) → ¬ Hollow t as l'

end Piece

theorem Piece.names_words {l : Line} (h : ∀ q ∈ l, q.isMarker = false) : names as l = [] := by
  rw [names, List.filterMap_eq_nil_iff]
  intro q hq
  cases q with
  | marker p => cases h _ hq
  | words s => rfl
  | image attrs => rfl

theorem Piece.names_blank (ht : t.Visible) {l : Line} (h : l.all (isBlank t) = true) : names as l = [] :=
  names_words fun q hq ↦ by
    cases q with
    | marker p =>
      have hblank := List.all_eq_true.1 h _ hq
      rw [isBlank_marker ht] at hblank
      cases hblank
    | words s => rfl
    | image attrs => rfl

namespace Piece

theorem Hollow.marker (ht : t.Visible) {l : Line} (h : Hollow t as l) {p : List Char} (hp : .marker p ∈ l) :
    as.nameOf? p = some "Ignore" ∨ as.nameOf? p = some "EndIgnore" := by
  obtain ⟨p', mid, q, rest, rfl, hname, hname', hmid, hrest, -⟩ := h
  have hnone : ∀ {l : Line}, l.all (isBlank t) = true → Piece.marker p ∉ l := fun hl hin ↦ by
    have hblank := List.all_eq_true.1 hl _ hin
    rw [isBlank_marker ht] at hblank
    cases hblank
  simp only [List.mem_cons, List.mem_append, marker.injEq] at hp
  rcases hp with rfl | hp | rfl | hp
  · exact .inl hname
  · exact absurd hp (hnone hmid)
  · exact .inr hname'
  · exact absurd hp (hnone hrest)

theorem Hollow.filter (ht : t.Visible) {l : Line} (h : Hollow t as l) : l <:+ l.filter (fun q ↦ !endsCondition as q) := by
  have hkeep : l.filter (fun q ↦ !endsCondition as q) = l := List.filter_eq_self.2 fun x hx ↦ by
    cases x with
    | marker p => rcases h.marker ht hx with hname | hname <;> simp [endsCondition, name?, hname]
    | words s => rfl
    | image attrs => rfl
  rw [hkeep]

namespace Firm

variable {a b l : Line} {p q : List Char}

theorem nil : Firm t as [] := fun l' hl' ↦ by
  rw [List.suffix_nil.1 hl']
  rintro ⟨p, mid, q, rest, hl, -⟩
  cases hl

theorem suffix (h : Firm t as l) {l' : Line} (hl' : l' <:+ l) : Firm t as l' :=
  fun l'' hl'' ↦ h l'' (hl''.trans (hl'.filter _))

theorem tail (h : Firm t as (.marker p :: l)) : Firm t as l := h.suffix (List.suffix_cons ..)

theorem take (h : Firm t as (a ++ .marker q :: b)) (hq : as.nameOf? q = some "EndIf") : Firm t as (a ++ b) := by
  have hends : endsCondition as (.marker q) = true := by simp [endsCondition, name?, hq]
  rw [Firm, List.filter_append, List.filter_cons_of_neg (by simp [hends]), ← List.filter_append] at h
  exact h

/-- A line is firm when no blanks are at its end. -/
theorem of_last (h : (l.filter (fun q ↦ !endsCondition as q)).getLast?.all (fun q ↦ !isBlank t q) = true) : Firm t as l := by
  rintro l' hl' ⟨p, mid, q, rest, rfl, -, -, -, hblank, hne⟩
  have hrest : rest <:+ l.filter (fun q ↦ !endsCondition as q) := .trans ⟨.marker p :: (mid ++ [.marker q]), by simp⟩ hl'
  obtain ⟨front, hfront⟩ := hrest
  rw [← hfront, List.getLast?_append_of_ne_nil _ hne, List.getLast?_eq_some_getLast hne, Option.all_some,
    List.all_eq_true.1 hblank _ (List.getLast_mem hne)] at h
  cases h

/-- A marker that a loop wrote keeps what is before it apart from what is behind it. -/
theorem echo (h : Firm t as b) (ht : t.Visible) (hp : as.Echo p) (a : Line) : Firm t as (a ++ .marker p :: b) := by
  have hname : ∀ {name}, as.nameOf? p = some name → name ∈ ElementBinding.names := fun hname ↦ hp.name hname
  have hends : endsCondition as (.marker p) = false := by
    rw [endsCondition, beq_eq_false_iff_ne]
    intro heq
    have := hname (Option.some.inj heq)
    simp [ElementBinding.names] at this
  intro l' hl' hhollow
  rw [List.filter_append, List.filter_cons_of_pos (by simp [hends])] at hl'
  have hin : .marker p ∈ l' ∨ l' <:+ b.filter (fun q ↦ !endsCondition as q) := by
    rcases List.suffix_or_suffix_of_suffix hl' (List.suffix_append ..) with hl' | hl'
    · rcases List.suffix_cons_iff.1 hl' with rfl | hl'
      · exact .inl (List.mem_cons_self ..)
      · exact .inr hl'
    · exact .inl (hl'.subset (List.mem_cons_self ..))
  rcases hin with hin | hl'
  · rcases hhollow.marker ht hin with hname' | hname' <;> have := hname hname' <;> simp [ElementBinding.names] at this
  · exact h l' hl' hhollow

theorem copies (h : Firm t as l) (ht : t.Visible) (mid : Line) {ms : List (Line × Line)} (hms : ∀ m ∈ ms, as.Frames m) :
    Firm t as (ms.flatMap (fun m ↦ m.1 ++ (mid ++ m.2)) ++ l) := by
  induction ms with
  | nil => exact h
  | cons m ms ih =>
    rw [List.forall_mem_cons] at hms
    cases hms.1 with
    | @mk p _ hopens hcloses =>
      have hline := (ih hms.2).echo ht hcloses (.marker p :: mid)
      simpa using hline

end Firm

end Piece

/-- Lines ahead in which every block is closed, and no region makes the scan stop. -/
structure Ahead (t : Delimiters) (as : Aliases) (ls : List Line) : Prop where
  closed : Reach.Closed Reach.closers (ls.flatMap (Piece.names as))
  firm : ∀ l ∈ ls, Piece.Firm t as l

/-- A marker that opens a block has no other command. -/
def Aliases.Sole (as : Aliases) (p : List Char) : Prop :=
  ∀ c, as.Says p c → c.name ∈ Manual.openers → ∃ d, Payload.read p = .ok [d] ∧ as.expand d = c

theorem Aliases.Sole.name {p : List Char} (h : as.Sole p) {c : Command} (hsaid : as.Says p c) (hc : c.name ∈ Manual.openers) :
    as.nameOf? p = some c.name := by
  obtain ⟨d, hread, rfl⟩ := h c hsaid hc
  rw [nameOf?, hread]
  exact congrArg some (as.target_eq d)

theorem Aliases.Echo.sole {p : List Char} (h : as.Echo p) : as.Sole p := fun c hsaid hc ↦ by
  have hname := h c hsaid
  simp only [ElementBinding.names, Manual.openers, List.mem_cons, List.not_mem_nil, or_false] at hname hc
  rcases hname with hname | hname | hname <;> simp [hname] at hc

namespace Ahead

variable {a b : List Line} {l : Line}

theorem drop (h : Ahead t as (a ++ l :: b)) (hl : Piece.names as l = []) : Ahead t as (a ++ b) where
  closed := by simpa [hl] using h.closed
  firm l' hl' := h.firm l' ((List.mem_append.1 hl').elim (List.mem_append_left _) fun hl' ↦ List.mem_append_right _ (List.mem_cons_of_mem _ hl'))

theorem kept (ht : t.Visible) (h : Ahead t as (a ++ l :: b)) : Ahead t as (a ++ (Piece.kept t l ++ b)) := by
  rw [Piece.kept]
  split
  · next hblank => exact h.drop (Piece.names_blank ht hblank)
  · exact h

theorem part (h : Ahead t as (a ++ l :: b)) : Ahead t as (a ++ (Sheet.part l ++ b)) := by
  rw [Sheet.part]
  split
  · next hempty =>
    rw [List.isEmpty_iff.1 hempty] at h
    exact h.drop rfl
  · exact h

variable {g : Gap} {R : Reach} (ht : t.Visible)

theorem removed (ht : t.Visible) (h : Ahead t as (g.right :: g.below)) : ∃ ls, (g.removed t).ahead? = some ls ∧ Ahead t as ls := by
  rcases g.ahead?_removed (t := t) with heq | heq
  · exact ⟨_, heq, kept (a := []) ht h⟩
  · exact ⟨_, heq, h⟩

theorem names_ahead (g : Gap) : g.ahead.flatMap (Piece.names as) = as.nameOf? g.payload :: (g.right :: g.below).flatMap (Piece.names as) := rfl

theorem firm_right (h : Ahead t as g.ahead) : ∀ l ∈ g.right :: g.below, Piece.Firm t as l := by
  have hfirm := List.forall_mem_cons.1 h.firm
  exact List.forall_mem_cons.2 ⟨hfirm.1.tail, hfirm.2⟩

theorem passed (h : Ahead t as g.ahead) (hname : as.nameOf? g.payload ≠ some "Ignore") : Ahead t as (g.right :: g.below) where
  closed := (names_ahead g ▸ h.closed).tail hname
  firm := h.firm_right

/-- The search from the marker of a block ends ahead, and what it passes and what it leaves are closed each. -/
theorem block (h : Ahead t as g.ahead) {opener closer : String} (hpairs : Reach.Pairs [opener] closer) (hname : as.nameOf? g.payload = some opener) :
    ∃ R q, Reach.seek? as [opener] closer ⟨0, false⟩ g.right g.below = some R ∧ R.Severs q g.right g.below ∧ as.nameOf? q = some closer ∧
      Reach.Closed ["EndIgnore"] (R.within.flatMap (Piece.names as)) ∧ Reach.Closed Reach.closers ((R.beyond g.below).flatMap (Piece.names as)) := by
  have hclosed := h.closed
  rw [names_ahead, hname] at hclosed
  obtain ⟨inner, rest, hnames, hinner, hrest⟩ := hclosed.of_block hpairs
  have hcloses : Nesting.closes ⟨0, false⟩ closer (some closer) = true := by simp [Nesting.closes]
  obtain ⟨R, q, hR, hsevers, hq, rfl, rfl⟩ := Reach.seek?_names hcloses hnames (hinner.across hpairs 0)
  exact ⟨R, q, hR, hsevers, hq, hinner, hrest⟩

theorem region (h : Ahead t as g.ahead) (hname : as.nameOf? g.payload = some "Ignore") :
    ∃ R q, Reach.seek? as [] "EndIgnore" ⟨0, false⟩ g.right g.below = some R ∧ R.Severs q g.right g.below ∧ as.nameOf? q = some "EndIgnore" ∧
      Reach.Closed Reach.closers ((R.beyond g.below).flatMap (Piece.names as)) := by
  have hclosed := h.closed
  rw [names_ahead, hname] at hclosed
  obtain ⟨inner, rest, hnames, hinner, hrest⟩ := hclosed.of_region
  have hcloses : Nesting.closes ⟨0, false⟩ "EndIgnore" (some "EndIgnore") = true := by decide
  obtain ⟨R, q, hR, hsevers, hq, -, rfl⟩ := Reach.seek?_names hcloses hnames (Reach.across_ended hinner)
  exact ⟨R, q, hR, hsevers, hq, hrest⟩

include ht

theorem opened (h : Ahead t as g.ahead) (hname : as.nameOf? g.payload = some "If")
    (hR : Reach.seek? as ["If"] "EndIf" ⟨0, false⟩ g.right g.below = some R) : ∃ ls, (g.opened t R).ahead? = some ls ∧ Ahead t as ls := by
  obtain ⟨R', q, hR', hsevers, hq, hwithin, hbeyond⟩ := h.block .conditions hname
  obtain rfl := Option.some.inj (hR'.symm.trans hR)
  have hclosed := hwithin.loose.append hbeyond
  have hfirm := h.firm_right
  cases hsevers with
  | @here mid rest hright =>
    have hline : Piece.Firm t as (mid ++ rest) := (hright ▸ hfirm g.right (List.mem_cons_self ..)).take hq
    have hahead : Ahead t as ((mid ++ rest) :: g.below) := by
      refine ⟨?_, List.forall_mem_cons.2 ⟨hline, (List.forall_mem_cons.1 hfirm).2⟩⟩
      simpa [Reach.within, Reach.beyond, Piece.names] using hclosed
    exact removed (g := { g with right := mid ++ rest }) ht hahead
  | @there front rest mid below' hbelow =>
    rw [hbelow] at hfirm
    have hline : Piece.Firm t as (front ++ rest) := (hfirm (front ++ .marker q :: rest) (by simp)).take hq
    have hahead : Ahead t as ((g.right :: mid) ++ (front ++ rest) :: below') := by
      refine ⟨?_, fun l hl ↦ ?_⟩
      · simpa [Reach.within, Reach.beyond, Piece.names] using hclosed
      · simp only [List.cons_append, List.mem_cons, List.mem_append] at hl hfirm
        rcases hl with rfl | hl | rfl | hl
        · exact hfirm _ (by simp)
        · exact hfirm l (by simp [hl])
        · exact hline
        · exact hfirm l (by simp [hl])
    exact removed (g := { g with below := mid ++ (Piece.kept t (front ++ rest) ++ below') }) ht (hahead.kept ht)

omit ht in
theorem closed_copies {f : Line × Line → List Line} {inner : List (Option String)} (hinner : Reach.Closed ["EndIgnore"] inner)
    (hf : ∀ m : Line × Line, (f m).flatMap (Piece.names as) = Piece.names as m.1 ++ (inner ++ Piece.names as m.2))
    {ms : List (Line × Line)} (hms : ∀ m ∈ ms, as.Frames m) : Reach.Closed Reach.closers ((ms.flatMap f).flatMap (Piece.names as)) := by
  have hother : ∀ {p : List Char} {names : List (Option String)}, as.Echo p → Reach.Closed Reach.closers names →
      Reach.Closed Reach.closers (as.nameOf? p :: names) := fun hecho hnames ↦ .other (fun name hname hblock ↦ by
    have hin := hecho.name hname
    simp only [ElementBinding.names, Reach.blockNames, List.mem_cons, List.not_mem_nil, or_false] at hin hblock
    rcases hin with rfl | rfl | rfl <;> simp at hblock) hnames
  induction ms with
  | nil => exact .nil
  | cons m ms ih =>
    rw [List.forall_mem_cons] at hms
    rw [List.flatMap_cons, List.flatMap_append, hf]
    refine Reach.Closed.append ?_ (ih hms.2)
    cases hms.1 with
    | mk hopens hcloses => exact hother hopens (hinner.loose.append (hother hcloses .nil))

theorem replicated (h : Ahead t as g.ahead) {opener closer : String} (hpairs : Reach.Pairs [opener] closer) (hname : as.nameOf? g.payload = some opener)
    (hR : Reach.seek? as [opener] closer ⟨0, false⟩ g.right g.below = some R) {ms : List (Line × Line)} (hms : ∀ m ∈ ms, as.Frames m) :
    ∃ ls, (g.replicated ms R).ahead? = some ls ∧ Ahead t as ls := by
  obtain ⟨R', q, hR', hsevers, hq, hwithin, hbeyond⟩ := h.block hpairs hname
  obtain rfl := Option.some.inj (hR'.symm.trans hR)
  have hfirm := h.firm_right
  cases hsevers with
  | @here mid rest hright =>
    have hcopies := closed_copies (f := fun m ↦ [m.1 ++ (mid ++ m.2)]) hwithin
      (fun m ↦ by simp [Reach.within, Piece.names]) hms
    refine ⟨_, rfl, ?_, List.forall_mem_cons.2 ⟨?_, (List.forall_mem_cons.1 hfirm).2⟩⟩
    · have hnames := hcopies.append hbeyond
      have hjoin : Piece.names as (ms.flatMap fun m ↦ m.1 ++ (mid ++ m.2)) =
          (ms.flatMap fun m ↦ [m.1 ++ (mid ++ m.2)]).flatMap (Piece.names as) := by
        simp only [Piece.names, List.filterMap_flatMap, List.flatMap_assoc, List.flatMap_singleton]
      rw [← hjoin] at hnames
      simpa [Reach.beyond, Piece.names] using hnames
    · have hrest : Piece.Firm t as rest := (hfirm g.right (List.mem_cons_self ..)).suffix (hright ▸ ⟨mid ++ [.marker q], by simp⟩)
      exact hrest.copies ht mid hms
  | @there front rest mid below' hbelow =>
    rw [hbelow] at hfirm
    have hcopies := closed_copies (f := fun m ↦ (m.1 ++ g.right) :: (mid ++ [front ++ m.2])) hwithin
      (fun m ↦ by simp [Reach.within, Piece.names]) hms
    have hahead : Ahead t as (ms.flatMap (fun m ↦ (m.1 ++ g.right) :: (mid ++ [front ++ m.2])) ++ rest :: below') := by
      refine ⟨?_, fun l hl ↦ ?_⟩
      · rw [List.flatMap_append]
        exact hcopies.append hbeyond
      · rcases List.mem_append.1 hl with hl | hl
        · obtain ⟨m, hm, hl⟩ := List.mem_flatMap.1 hl
          cases hms m hm with
          | mk hopens hcloses =>
            simp only [List.mem_cons, List.mem_append, List.not_mem_nil, or_false] at hl
            rcases hl with rfl | hl | rfl
            · exact (hfirm g.right (by simp)).echo ht hopens []
            · exact hfirm l (by simp [hl])
            · exact Piece.Firm.nil.echo ht hcloses front
        · rcases List.mem_cons.1 hl with rfl | hl
          · exact (hfirm (front ++ .marker q :: l) (by simp)).suffix ⟨front ++ [.marker q], by simp⟩
          · exact hfirm l (by simp [hl])
    exact ⟨_, rfl, hahead.part⟩

theorem skipped (h : Ahead t as g.ahead) (hname : as.nameOf? g.payload = some "Ignore") :
    ∃ ls, (g.skipped t (Reach.seek? as [] "EndIgnore" ⟨0, false⟩ g.right g.below)).ahead? = some ls ∧ Ahead t as ls := by
  obtain ⟨R, q, hR, hsevers, hq, hbeyond⟩ := h.region hname
  have hfirm := h.firm_right
  rw [hR]
  cases hsevers with
  | @here mid rest hright =>
    have hahead : Ahead t as (rest :: g.below) := by
      have hrest : Piece.Firm t as rest := (hfirm g.right (List.mem_cons_self ..)).suffix (hright ▸ ⟨mid ++ [.marker q], by simp⟩)
      exact ⟨hbeyond, List.forall_mem_cons.2 ⟨hrest, (List.forall_mem_cons.1 hfirm).2⟩⟩
    rw [Gap.skipped]
    split
    · next hblank =>
      split
      · next hempty =>
        rw [List.isEmpty_iff.1 hempty] at hahead
        exact ⟨_, rfl, drop (a := []) hahead rfl⟩
      · next hempty =>
        -- the line of the marker would end in a hollow region
        rw [Bool.and_eq_true, List.all_append, Bool.and_eq_true, List.all_map] at hblank
        have hmid : mid.all (Piece.isBlank t) = true := hblank.1.2
        have hhollow : Piece.Hollow t as (.marker g.payload :: g.right) :=
          ⟨g.payload, mid, q, rest, by rw [hright], hname, hq, hmid, hblank.2, fun hnil ↦ hempty (by simp [hnil])⟩
        exact absurd hhollow (h.firm _ (List.mem_cons_self ..) _ (hhollow.filter ht))
    · exact ⟨_, rfl, hahead⟩
  | @there front rest mid below' hbelow =>
    have hahead : Ahead t as (rest :: below') := by
      rw [hbelow] at hfirm
      refine ⟨hbeyond, List.forall_mem_cons.2 ⟨?_, fun l hl ↦ hfirm l (by simp [hl])⟩⟩
      exact (hfirm (front ++ .marker q :: rest) (by simp)).suffix ⟨front ++ [.marker q], by simp⟩
    rw [Gap.skipped]
    split
    · next hblank =>
      rw [Bool.and_eq_true] at hblank
      exact ⟨_, rfl, drop (a := []) hahead (Piece.names_blank ht hblank.2)⟩
    · exact ⟨_, rfl, hahead⟩

end Ahead

/-! ### A turn ahead -/

namespace Gap

variable {s : Scanner} {m : Manual} {g : Gap} {k : Desk} {r : Report} (hs : s.registry = .builtin) (hdelimiters : s.toolkit.delimiters = t)
  (ht : t.Visible) (hclosing : Payload.EndsBracket t.closing.toList) (has : ∀ name ∈ ElementBinding.names, as.target name = name)
  (hm : m.Quiet s.provider)

include hs hdelimiters ht hclosing has hm

/-- A turn leaves what is ahead closed and the scan before it. -/
theorem visit_ahead (hk : k.Keeps s.provider as) (hsaid : ∀ c, as.Says g.payload c → c.name ∉ m.omits) (hsole : as.Sole g.payload)
    (hahead : Ahead t as g.ahead) {D : Draft} (hvisit : g.visit s m k r = some (.ok D)) :
    ∃ ls, D.sheet.ahead? = some ls ∧ Ahead t as ls := by
  obtain ⟨x, hvisit', hleaves⟩ := visit_leaves hdelimiters ht.toProper hclosing has hm hk r hsaid
  obtain ⟨hleaves, -⟩ := hleaves D (Option.some.inj (hvisit'.symm.trans hvisit))
  by_cases hignore : as.nameOf? g.payload = some "Ignore"
  · obtain ⟨c, hc, hname⟩ := as.says_of_nameOf? hignore
    obtain ⟨d, hread, rfl⟩ := hsole c hc (by simp [hname, Manual.openers])
    have hget : s.registry.get? (as.expand d).name = some Handler.ignored := by rw [hs, hname]; rfl
    have hanswer : g.answer m s.toolkit.delimiters (as.expand d) k =
        some (.ok (.moved (g.skipped t (Reach.seek? as [] "EndIgnore" ⟨0, false⟩ g.right g.below))), k) := by
      have homit := hsaid _ hc
      rw [hname] at homit
      simp [answer, homit, hname, ignored, hk.aliases, hdelimiters]
    obtain rfl := Except.ok.inj (Option.some.inj ((g.visit_moved s m (r := r) hread (hk.aliases ▸ rfl) hget hanswer).symm.trans hvisit))
    exact hahead.skipped ht hignore
  · generalize D.sheet = S at hleaves
    have hright := hahead.passed hignore
    cases hleaves with
    | passed c => exact ⟨_, rfl, hright⟩
    | removed => exact hright.removed ht
    | opened hc hname hR => exact hahead.opened ht (hname ▸ hsole.name hc (by simp [hname, Manual.openers])) hR
    | replicated hc hpairs hR hms =>
      refine hahead.replicated ht hpairs (hsole.name hc ?_) hR hms
      rcases hpairs.either with ⟨hname, -⟩ | ⟨hname, -⟩ <;> simp [hname, Manual.openers]
    | skipped hc hname => exact absurd (hname ▸ hsole.name hc (by simp [hname, Manual.openers])) hignore

end Gap

end Stencil
