import Stencil.Proofs.Sheet.Balance
/-!
Blocks that are closed within some lines. A search that begins at the opening marker of one ends in these lines,
and it ends there whatever follows them.
-/

namespace Stencil

namespace Reach

open Selection (Nesting)

/-! ### Names -/

def closers : List String := ["EndIf", "EndFor", "EndIgnore"]

/-- Names of markers whose blocks are closed among them: conditions and loops are nested, and a region goes up to the
first marker that ends one, whatever stands in it. The names given may close blocks that are not opened; within a
block only regions may be ended so. -/
inductive Closed : List String → List (Option String) → Prop where
  | nil {free : List String} : Closed free []
  | other {free : List String} {name? : Option String} {names : List (Option String)} :
      (∀ name ∈ name?, name ∈ blockNames → name ∈ free) → Closed free names → Closed free (name? :: names)
  | block {free : List String} {opener closer : String} {inner names : List (Option String)} : Pairs [opener] closer →
      Closed ["EndIgnore"] inner → Closed free names → Closed free (some opener :: (inner ++ some closer :: names))
  | region {free : List String} {inner names : List (Option String)} : some "EndIgnore" ∉ inner → Closed free names →
      Closed free (some "Ignore" :: (inner ++ some "EndIgnore" :: names))

theorem Pairs.either {opener closer : String} (h : Pairs [opener] closer) :
    opener = "If" ∧ closer = "EndIf" ∨ opener = "For" ∧ closer = "EndFor" := by
  cases h with
  | conditions => exact .inl ⟨rfl, rfl⟩
  | loops => exact .inr ⟨rfl, rfl⟩

theorem Pairs.unique {opener closer closer' : String} (h : Pairs [opener] closer) (h' : Pairs [opener] closer') : closer = closer' := by
  rcases h.either with ⟨rfl, rfl⟩ | ⟨rfl, rfl⟩ <;> rcases h'.either with ⟨hname, rfl⟩ | ⟨hname, rfl⟩ <;> simp_all

variable {as : Aliases} {openers : List String} {opener closer : String} {n n' : Nesting}

namespace Closed

variable {free free' : List String} {name? : Option String} {names a b : List (Option String)}

theorem mono (h : Closed free names) (hfree : free ⊆ free') : Closed free' names := by
  induction h with
  | nil => exact .nil
  | other hname _ ih => exact .other (fun name hin hblock ↦ hfree (hname name hin hblock)) (ih hfree)
  | block hpairs hinner _ _ ih => exact .block hpairs hinner (ih hfree)
  | region hinner _ ih => exact .region hinner (ih hfree)

theorem loose (h : Closed ["EndIgnore"] names) : Closed closers names := h.mono (by simp [closers])

theorem append (ha : Closed free a) (hb : Closed free b) : Closed free (a ++ b) := by
  induction ha with
  | nil => exact hb
  | other hname _ ih => exact .other hname (ih hb)
  | block hpairs hinner _ _ ih =>
    rw [List.cons_append, List.append_assoc]
    exact .block hpairs hinner (ih hb)
  | region hinner _ ih =>
    rw [List.cons_append, List.append_assoc]
    exact .region hinner (ih hb)

theorem of_block (h : Closed closers (some opener :: names)) (hpairs : Pairs [opener] closer) :
    ∃ inner rest, names = inner ++ some closer :: rest ∧ Closed ["EndIgnore"] inner ∧ Closed closers rest := by
  cases h with
  | other hname _ =>
    have hfree := hname opener rfl (hpairs.openers opener (List.mem_singleton_self _))
    rcases hpairs.either with ⟨rfl, -⟩ | ⟨rfl, -⟩ <;> simp [closers] at hfree
  | block hblock hinner hrest =>
    obtain rfl := hblock.unique hpairs
    exact ⟨_, _, rfl, hinner, hrest⟩
  | region =>
    rcases hpairs.either with ⟨hname, -⟩ | ⟨hname, -⟩ <;> simp at hname

theorem of_region (h : Closed closers (some "Ignore" :: names)) :
    ∃ inner rest, names = inner ++ some "EndIgnore" :: rest ∧ some "EndIgnore" ∉ inner ∧ Closed closers rest := by
  cases h with
  | other hname _ =>
    have hfree := hname "Ignore" rfl (by simp [blockNames])
    simp [closers] at hfree
  | block hblock =>
    rcases hblock.either with ⟨hname, -⟩ | ⟨hname, -⟩ <;> simp at hname
  | region hinner hrest => exact ⟨_, _, rfl, hinner, hrest⟩

/-- What follows a marker is closed too, unless the marker begins a region: its block may be ended without it. -/
theorem tail (h : Closed closers (name? :: names)) (hname : name? ≠ some "Ignore") : Closed closers names := by
  cases h with
  | other _ hnames => exact hnames
  | @block _ _ closer _ _ hpairs hinner hrest =>
    have hfree : closer ∈ closers := by
      rcases hpairs.either with ⟨-, rfl⟩ | ⟨-, rfl⟩ <;> simp [closers]
    exact hinner.loose.append (.other (fun _ hin _ ↦ Option.some.inj hin ▸ hfree) hrest)
  | region => exact absurd rfl hname

/-- The search for the end of a block passes what is closed. -/
theorem across (h : Closed ["EndIgnore"] names) (hpairs : Pairs openers closer) (depth : ℕ) :
    Nesting.across openers closer ⟨depth, false⟩ names = some ⟨depth, false⟩ := by
  generalize hfree : ["EndIgnore"] = free at h
  induction h generalizing depth with
  | nil => rfl
  | @other free name? names hname _ ih =>
    subst hfree
    have hstep : Nesting.closes ⟨depth, false⟩ closer name? = false ∧ Nesting.pass ⟨depth, false⟩ openers closer name? = ⟨depth, false⟩ := by
      by_cases hblock : ∃ name ∈ name?, name ∈ blockNames
      · obtain ⟨name, rfl, hblock⟩ := hblock
        obtain rfl := List.mem_singleton.1 (hname name rfl hblock)
        cases hpairs <;> exact ⟨rfl, rfl⟩
      · have hother : ∀ name ∈ name?, name ∉ blockNames := fun name hin hblock' ↦ hblock ⟨name, hin, hblock'⟩
        exact ⟨Nesting.closes_other hother hpairs.closer, Nesting.pass_other hother hpairs.closer hpairs.openers⟩
    rw [Nesting.across_cons hstep.1 hstep.2, ih depth rfl]
  | block hblock _ _ ihinner ih => exact (hblock.across_block hpairs (fun depth ↦ ihinner depth rfl) _).trans (ih depth hfree)
  | @region free inner names hinner _ ih =>
    have hwithin : ∀ inner : List (Option String), some "EndIgnore" ∉ inner →
        Nesting.across openers closer ⟨depth, true⟩ inner = some ⟨depth, true⟩ := fun inner ↦ by
      induction inner with
      | nil => exact fun _ ↦ rfl
      | cons name? inner ih =>
        intro hinner
        rw [List.mem_cons, not_or] at hinner
        have hpass : Nesting.pass ⟨depth, true⟩ openers closer name? = ⟨depth, true⟩ := by
          rcases name? with _ | name
          · rfl
          · have hname : name ≠ "EndIgnore" := fun heq ↦ hinner.1 (congrArg some heq.symm)
            simp [Nesting.pass, hname]
        rw [Nesting.across_cons (by simp [Nesting.closes]) hpass, ih hinner.2]
    have hbegin : Nesting.pass ⟨depth, false⟩ openers closer (some "Ignore") = ⟨depth, true⟩ := by cases hpairs <;> rfl
    have hend : Nesting.pass ⟨depth, true⟩ openers closer (some "EndIgnore") = ⟨depth, false⟩ := by cases hpairs <;> rfl
    have hcloses : Nesting.closes ⟨depth, false⟩ closer (some "Ignore") = false := by cases hpairs <;> rfl
    rw [Nesting.across_cons hcloses hbegin, Nesting.across_append, hwithin inner hinner, Option.bind_some,
      Nesting.across_cons (by simp [Nesting.closes]) hend, ih depth hfree]

end Closed

/-- The search for the end of a region passes all other markers. -/
theorem across_ended {inner : List (Option String)} (h : some "EndIgnore" ∉ inner) :
    Nesting.across [] "EndIgnore" ⟨0, false⟩ inner = some ⟨0, false⟩ := by
  induction inner with
  | nil => rfl
  | cons name? inner ih =>
    rw [List.mem_cons, not_or] at h
    have hname : ∀ name, name? = some name → name ≠ "EndIgnore" := fun name hsome hname ↦ h.1 (by rw [hsome, hname])
    have hcloses : Nesting.closes ⟨0, false⟩ "EndIgnore" name? = false := by
      rcases name? with _ | name
      · rfl
      · simp [Nesting.closes, hname name rfl]
    have hpass : Nesting.pass ⟨0, false⟩ [] "EndIgnore" name? = ⟨0, false⟩ := by
      rcases name? with _ | name
      · rfl
      · simp [Nesting.pass, hname name rfl]
    rw [Nesting.across_cons hcloses hpass, ih h.2]

/-! ### Searches -/

/-- A marker that stands where a search from behind another ended. -/
inductive Severs (q : List Char) (right : Line) (below : List Line) : Reach → Prop where
  | here {mid rest : Line} : right = mid ++ .marker q :: rest → Severs q right below (.here mid rest)
  | there {front rest : Line} {mid below' : List Line} : below = mid ++ (front ++ .marker q :: rest) :: below' →
      Severs q right below (.there right mid front rest below')

def within : Reach → List Line
  | here mid _ => [mid]
  | there first mid front _ _ => first :: (mid ++ [front])

def beyond (below : List Line) : Reach → List Line
  | here _ rest => rest :: below
  | there _ _ _ rest below => rest :: below

/-- A search passes nothing and leaves nothing that was not there. -/
theorem Severs.subset {p : List Char} {right : Line} {below : List Line} {R : Reach} (h : R.Severs p right below) :
    (R.within ++ R.beyond below).flatten ⊆ (right :: below).flatten := by
  intro q hq
  cases h with
  | here hright =>
    subst hright
    simp only [within, beyond, List.flatten_append, List.flatten_cons, List.flatten_nil, List.append_nil, List.mem_append, List.mem_cons] at hq ⊢
    tauto
  | there hbelow =>
    subst hbelow
    simp only [within, beyond, List.flatten_append, List.flatten_cons, List.flatten_nil, List.append_nil, List.mem_append, List.mem_cons] at hq ⊢
    tauto

theorem alongLine_cut {l mid back : Line} (h : alongLine as openers closer n l = .inl (mid, back)) :
    ∃ q, l = mid ++ .marker q :: back := by
  induction l generalizing n mid with
  | nil => cases h
  | cons q l ih =>
    cases q with
    | marker p =>
      rw [alongLine] at h
      split at h
      · cases h
        exact ⟨p, rfl⟩
      · split at h
        · next hline =>
          cases h
          obtain ⟨q, rfl⟩ := ih hline
          exact ⟨q, rfl⟩
        · cases h
    | words _ | image _ =>
      rw [alongLine] at h
      · split at h
        · next hline =>
          cases h
          obtain ⟨q, rfl⟩ := ih hline
          exact ⟨q, rfl⟩
        · cases h
      · rintro _ ⟨⟩

theorem alongLines_cut {ls mid below : List Line} {front rest : Line} (h : alongLines as openers closer n ls = some (mid, front, rest, below)) :
    ∃ q, ls = mid ++ (front ++ .marker q :: rest) :: below := by
  induction ls generalizing n mid with
  | nil => cases h
  | cons l ls ih =>
    rw [alongLines] at h
    split at h
    · next hline =>
      cases h
      obtain ⟨q, rfl⟩ := alongLine_cut hline
      exact ⟨q, rfl⟩
    · obtain ⟨⟨mid', front', rest', below'⟩, hlines, hfound⟩ := Option.map_eq_some_iff.1 h
      cases hfound
      obtain ⟨q, rfl⟩ := ih hlines
      exact ⟨q, rfl⟩

theorem severs_of_seek? {right : Line} {below : List Line} {R : Reach} (h : seek? as openers closer n right below = some R) :
    ∃ q, R.Severs q right below := by
  rw [seek?] at h
  split at h
  · next hline =>
    cases h
    obtain ⟨q, rfl⟩ := alongLine_cut hline
    exact ⟨q, .here rfl⟩
  · obtain ⟨⟨mid, front, rest, below'⟩, hlines, hfound⟩ := Option.map_eq_some_iff.1 h
    cases hfound
    obtain ⟨q, rfl⟩ := alongLines_cut hlines
    exact ⟨q, .there rfl⟩

section Search

variable {inner rest : List (Option String)} (hcloses : n'.closes closer (some closer) = true)

include hcloses

/-- A search along a line ends at the marker that closes, or it comes as far as the names of the line. -/
theorem alongLine_names {l : Line} {more : List (Option String)} (hnames : Piece.names as l ++ more = inner ++ some closer :: rest)
    (hacross : n.across openers closer inner = some n') :
    (∃ mid q back, alongLine as openers closer n l = .inl (mid, back) ∧ l = mid ++ .marker q :: back ∧ as.nameOf? q = some closer ∧
        Piece.names as mid = inner ∧ Piece.names as back ++ more = rest) ∨
      ∃ n₁ inner', alongLine as openers closer n l = .inr n₁ ∧ inner = Piece.names as l ++ inner' ∧ more = inner' ++ some closer :: rest ∧
        n₁.across openers closer inner' = some n' := by
  induction l generalizing n inner with
  | nil => exact .inr ⟨n, inner, rfl, rfl, hnames, hacross⟩
  | cons q l ih =>
    cases hq : q.isMarker with
    | false =>
      have hq' : ∀ x ∈ [q], x.isMarker = false := by simpa using hq
      have hname : Piece.names as (q :: l) = Piece.names as l := by
        cases q <;> first | rfl | cases hq
      have halong : ∀ n, alongLine as openers closer n (q :: l) = _ := fun n ↦ alongLine_append hq' n l
      rw [hname] at hnames ⊢
      rcases ih hnames hacross with ⟨mid, p, back, hline, rfl, hp, hinner, hrest⟩ | ⟨n₁, inner', hline, hrest⟩
      · refine .inl ⟨q :: mid, p, back, ?_, rfl, hp, ?_, hrest⟩
        · rw [halong, hline]
          rfl
        · rw [← hinner]
          cases q <;> first | rfl | cases hq
      · refine .inr ⟨n₁, inner', ?_, hrest⟩
        rw [halong, hline]
    | true =>
      obtain ⟨p, rfl⟩ : ∃ p, q = .marker p := by
        cases q <;> first | exact ⟨_, rfl⟩ | cases hq
      have hcons : Piece.names as (.marker p :: l) = as.nameOf? p :: Piece.names as l := rfl
      rw [hcons, List.cons_append] at hnames
      cases inner with
      | nil =>
        obtain rfl := Option.some.inj hacross
        obtain ⟨hp, hrest⟩ := List.cons.inj hnames
        refine .inl ⟨[], p, l, ?_, rfl, hp, rfl, hrest⟩
        rw [alongLine, if_pos (by rw [hp, hcloses])]
      | cons name? inner =>
        obtain ⟨rfl, hmore⟩ := List.cons.inj hnames
        rw [Nesting.across] at hacross
        split at hacross
        · cases hacross
        next hpasses =>
        rcases ih hmore hacross with ⟨mid, q, back, hline, rfl, hq, hinner, hrest⟩ | ⟨n₁, inner', hline, rfl, hrest⟩
        · refine .inl ⟨.marker p :: mid, q, back, ?_, rfl, hq, ?_, hrest⟩
          · rw [alongLine, if_neg hpasses, hline]
          · rw [← hinner]
            rfl
        · refine .inr ⟨n₁, inner', ?_, rfl, hrest⟩
          rw [alongLine, if_neg hpasses, hline]

theorem alongLines_names {ls : List Line} (hnames : ls.flatMap (Piece.names as) = inner ++ some closer :: rest)
    (hacross : n.across openers closer inner = some n') :
    ∃ mid front q back below, alongLines as openers closer n ls = some (mid, front, back, below) ∧
      ls = mid ++ (front ++ .marker q :: back) :: below ∧ as.nameOf? q = some closer ∧
      (mid ++ [front]).flatMap (Piece.names as) = inner ∧ (back :: below).flatMap (Piece.names as) = rest := by
  induction ls generalizing n inner with
  | nil => simp at hnames
  | cons l ls ih =>
    rw [List.flatMap_cons] at hnames
    rcases alongLine_names hcloses hnames hacross with ⟨front, q, back, hline, rfl, hq, hinner, hrest⟩ | ⟨n₁, inner', hline, rfl, hmore, hacross'⟩
    · refine ⟨[], front, q, back, ls, ?_, rfl, hq, ?_, hrest⟩
      · rw [alongLines, hline]
      · simpa using hinner
    · obtain ⟨mid, front, q, back, below, hlines, rfl, hq, rfl, hrest⟩ := ih hmore hacross'
      refine ⟨l :: mid, front, q, back, below, ?_, rfl, hq, rfl, hrest⟩
      rw [alongLines, hline]
      dsimp only
      rw [hlines]
      rfl

/-- A search ends at the marker that closes, where the names of the markers tell that there is one. -/
theorem seek?_names {right : Line} {below : List Line} (hnames : (right :: below).flatMap (Piece.names as) = inner ++ some closer :: rest)
    (hacross : n.across openers closer inner = some n') :
    ∃ R q, seek? as openers closer n right below = some R ∧ R.Severs q right below ∧ as.nameOf? q = some closer ∧
      R.within.flatMap (Piece.names as) = inner ∧ (R.beyond below).flatMap (Piece.names as) = rest := by
  rw [List.flatMap_cons] at hnames
  rcases alongLine_names hcloses hnames hacross with ⟨mid, q, back, hline, rfl, hq, hinner, hrest⟩ | ⟨n₁, inner', hline, rfl, hmore, hacross'⟩
  · refine ⟨.here mid back, q, ?_, .here rfl, hq, ?_, hrest⟩
    · rw [seek?, hline]
    · simpa [within] using hinner
  · obtain ⟨mid, front, q, back, below, hlines, rfl, hq, rfl, hrest⟩ := alongLines_names hcloses hmore hacross'
    refine ⟨.there right mid front back below, q, ?_, .there rfl, hq, rfl, hrest⟩
    rw [seek?, hline]
    dsimp only
    rw [hlines]
    rfl

end Search

/-! ### More lines below -/

def follow (more : List Line) : Reach → Reach
  | here mid rest => here mid rest
  | there first mid front rest below => there first mid front rest (below ++ more)

theorem alongLines_follow {ls : List Line} {mid : List Line} {front rest : Line} {below : List Line}
    (h : alongLines as openers closer n ls = some (mid, front, rest, below)) (more : List Line) :
    alongLines as openers closer n (ls ++ more) = some (mid, front, rest, below ++ more) := by
  induction ls generalizing n mid with
  | nil => cases h
  | cons l ls ih =>
    rw [alongLines] at h
    rw [List.cons_append, alongLines]
    cases hline : alongLine as openers closer n l with
    | inl cut =>
      rw [hline] at h
      cases h
      rfl
    | inr n₁ =>
      rw [hline] at h
      obtain ⟨⟨mid', front', rest', below'⟩, hlines, hfound⟩ := Option.map_eq_some_iff.1 h
      cases hfound
      dsimp only
      rw [ih hlines]
      rfl

/-- A search that has ended is not felt by what is put below. -/
theorem seek?_follow {right : Line} {below : List Line} {R : Reach} (h : seek? as openers closer n right below = some R) (more : List Line) :
    seek? as openers closer n right (below ++ more) = some (R.follow more) := by
  rw [seek?] at h ⊢
  cases hline : alongLine as openers closer n right with
  | inl cut =>
    rw [hline] at h
    cases h
    rfl
  | inr n₁ =>
    rw [hline] at h
    obtain ⟨⟨mid, front, rest, below'⟩, hlines, hfound⟩ := Option.map_eq_some_iff.1 h
    cases hfound
    dsimp only
    rw [alongLines_follow hlines]
    rfl

end Reach

end Stencil
