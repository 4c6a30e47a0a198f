import Stencil.Proofs.Sheet.Reach
/-!
Looking ahead over blocks. The search for a closing marker passes every block that is closed within the lines
passed, whether it is in a region that does not count or not, and so finds the marker that closes its own.
-/

namespace Stencil

def Piece.name? (as : Aliases) : Piece → Option (Option String)
  | marker p => some (as.nameOf? p)
  | words _ => none
  | image _ => none

def Piece.names (as : Aliases) (l : Line) : List (Option String) := l.filterMap (name? as)

def Reach.blockNames : List String := ["If", "EndIf", "For", "EndFor", "Ignore", "EndIgnore"]

/-- The searches from the opening markers of conditions and of loops. -/
inductive Reach.Pairs : List String → String → Prop where
  | conditions : Pairs ["If"] "EndIf"
  | loops : Pairs ["For"] "EndFor"

theorem Reach.Pairs.closer {openers : List String} {closer : String} (h : Pairs openers closer) : closer ∈ blockNames := by
  cases h <;> simp [blockNames]

theorem Reach.Pairs.openers {openers : List String} {closer : String} (h : Pairs openers closer) : ∀ opener ∈ openers, opener ∈ blockNames := by
  cases h <;> simp [blockNames]

/-- Names of markers whose conditions and loops are nested and closed, and that leave no region out. -/
inductive Reach.Balanced : List (Option String) → Prop where
  | nil : Balanced []
  | other {name? : Option String} {names : List (Option String)} : (∀ name ∈ name?, name ∉ blockNames) → Balanced names →
      Balanced (name? :: names)
  | block {opener closer : String} {inner names : List (Option String)} : Pairs [opener] closer → Balanced inner → Balanced names →
      Balanced (some opener :: (inner ++ some closer :: names))

namespace Selection.Nesting

variable (openers : List String) (closer : String)

/-- The nesting behind some markers, unless one of them is the closing one. -/
def across : Nesting → List (Option String) → Option Nesting
  | n, [] => some n
  | n, name? :: names => if n.closes closer name? then none else across (n.pass openers closer name?) names

variable {openers closer} {n n' : Nesting}

theorem closes_other {name? : Option String} (hname : ∀ name ∈ name?, name ∉ Reach.blockNames) (hcloser : closer ∈ Reach.blockNames) :
    n.closes closer name? = false := by
  cases name? with
  | none => rfl
  | some name =>
    have hne : name ≠ closer := by
      rintro rfl
      exact hname name rfl hcloser
    simp [closes, hne]

/-- A marker that is no part of a block leaves a search as deep as it was. -/
theorem pass_other {name? : Option String} (hname : ∀ name ∈ name?, name ∉ Reach.blockNames) (hcloser : closer ∈ Reach.blockNames)
    (hopeners : ∀ opener ∈ openers, opener ∈ Reach.blockNames) : n.pass openers closer name? = n := by
  cases name? with
  | none => rfl
  | some name =>
    have hname := hname name rfl
    have hne : name ≠ closer := by
      rintro rfl
      exact hname hcloser
    have hopener : name ∉ openers := fun h ↦ hname (hopeners name h)
    simp only [Reach.blockNames, List.mem_cons, List.not_mem_nil, or_false, not_or] at hname
    simp [pass, hname, hne, hopener]

theorem across_append (a b : List (Option String)) (n : Nesting) :
    n.across openers closer (a ++ b) = (n.across openers closer a).bind fun n ↦ n.across openers closer b := by
  induction a generalizing n with
  | nil => rfl
  | cons name? a ih =>
    rw [List.cons_append, across, across]
    split
    · rfl
    · exact ih _

theorem across_cons {name? : Option String} (hcloses : n.closes closer name? = false) (hpass : n.pass openers closer name? = n')
    (names : List (Option String)) : n.across openers closer (name? :: names) = n'.across openers closer names := by
  rw [across, if_neg (by simp [hcloses]), hpass]

end Selection.Nesting

namespace Reach

open Selection (Nesting)

variable {openers : List String} {closer : String}

theorem Pairs.across_block {opener close : String} (hblock : Pairs [opener] close) (hpairs : Pairs openers closer) {depth : ℕ} {ignoring : Bool}
    {inner : List (Option String)} (hinner : ∀ depth, Nesting.across openers closer ⟨depth, ignoring⟩ inner = some ⟨depth, ignoring⟩)
    (names : List (Option String)) : Nesting.across openers closer ⟨depth, ignoring⟩ (some opener :: (inner ++ some close :: names)) =
      Nesting.across openers closer ⟨depth, ignoring⟩ names := by
  -- within the block the search is deeper by one where it counts such blocks
  let depth' := if opener ∈ openers ∧ ignoring = false then depth + 1 else depth
  have hopen : Nesting.closes ⟨depth, ignoring⟩ closer (some opener) = false := by
    cases hblock <;> cases hpairs <;> simp [Nesting.closes]
  have hopened : Nesting.pass ⟨depth, ignoring⟩ openers closer (some opener) = ⟨depth', ignoring⟩ := by
    cases hblock <;> cases hpairs <;> cases ignoring <;> simp [Nesting.pass, depth']
  have hclose : Nesting.closes ⟨depth', ignoring⟩ closer (some close) = false := by
    cases hblock <;> cases hpairs <;> cases ignoring <;> simp [Nesting.closes, depth']
  have hclosed : Nesting.pass ⟨depth', ignoring⟩ openers closer (some close) = ⟨depth, ignoring⟩ := by
    cases hblock <;> cases hpairs <;> cases ignoring <;> simp [Nesting.pass, depth']
  rw [Nesting.across_cons hopen hopened, Nesting.across_append, hinner, Option.bind_some, Nesting.across_cons hclose hclosed]

theorem Balanced.across {names : List (Option String)} (h : Balanced names) (hpairs : Pairs openers closer) (n : Nesting) :
    n.across openers closer names = some n := by
  induction h generalizing n with
  | nil => rfl
  | @other name? names hname _ ih =>
    rw [Nesting.across_cons (Nesting.closes_other hname hpairs.closer) (Nesting.pass_other hname hpairs.closer hpairs.openers), ih n]
  | block hblock _ _ ihinner ih => exact (hblock.across_block hpairs (fun depth ↦ ihinner _) _).trans (ih n)

/-! ### Lines -/

variable {as : Aliases} {n n' : Nesting}

theorem alongLine_across {l : Line} (h : n.across openers closer (Piece.names as l) = some n') :
    alongLine as openers closer n l = .inr n' := by
  induction l generalizing n with
  | nil => exact congrArg Sum.inr (Option.some.inj h)
  | cons q l ih =>
    cases q with
    | words s =>
      have hl : n.across openers closer (Piece.names as l) = some n' := h
      rw [alongLine, ih hl]
      simp
    | image attrs =>
      have hl : n.across openers closer (Piece.names as l) = some n' := h
      rw [alongLine, ih hl]
      simp
    | marker p =>
      have hl : n.across openers closer (as.nameOf? p :: Piece.names as l) = some n' := h
      rw [Nesting.across] at hl
      split at hl
      · cases hl
      · next hcloses =>
        rw [alongLine, if_neg hcloses, ih hl]

/-- Lines that a search leaves as deep as it came to them. -/
def Level (as : Aliases) (openers : List String) (closer : String) (ls : List Line) : Prop :=
  ∀ (n : Nesting) below, alongLines as openers closer n (ls ++ below) =
    (alongLines as openers closer n below).map fun (mid, front, rest, below) ↦ (ls ++ mid, front, rest, below)

theorem Balanced.level {ls : List Line} (h : Balanced (ls.flatMap (Piece.names as))) (hpairs : Pairs openers closer) :
    Level as openers closer ls := by
  have hlines : ∀ (ls : List Line) (n n' : Nesting) (below : List Line), n.across openers closer (ls.flatMap (Piece.names as)) = some n' →
      alongLines as openers closer n (ls ++ below) =
        (alongLines as openers closer n' below).map fun (mid, front, rest, below) ↦ (ls ++ mid, front, rest, below) := fun ls ↦ by
    induction ls with
    | nil =>
      intro n n' below hacross
      obtain rfl := Option.some.inj hacross
      simp
    | cons l ls ih =>
      intro n n' below hacross
      rw [List.flatMap_cons, Nesting.across_append] at hacross
      obtain ⟨n₁, hline, hrest⟩ := Option.bind_eq_some_iff.1 hacross
      rw [List.cons_append, alongLines, alongLine_across hline]
      dsimp only
      rw [ih n₁ n' below hrest]
      cases alongLines as openers closer n' below <;> rfl
  exact fun n below ↦ hlines ls n n below (h.across hpairs n)

/-- The search from the opening marker of a block, alone in its line, over the lines within it. -/
theorem seek?_level {a : List Line} {q : List Char} (h : Level as openers closer a) (hclose : as.nameOf? q = some closer)
    (below : List Line) : seek? as openers closer ⟨0, false⟩ [] (a ++ [.marker q] :: below) = some (.there [] a [] [] below) := by
  have hline : alongLine as openers closer ⟨0, false⟩ [.marker q] = .inl ([], []) := by
    simp [alongLine, hclose, Nesting.closes]
  rw [seek?, alongLine]
  dsimp only
  rw [h ⟨0, false⟩, alongLines, hline]
  simp

end Reach

end Stencil
