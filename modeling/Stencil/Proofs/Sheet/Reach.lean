import Stencil.Proofs.Payload.Pieces
import Stencil.Run.Selection
import Mathlib.Tactic
/-!
Lines as pieces, and what the search for a closing marker comes to on them. The marker is found in
the rest of the line that the search begins in, or in a later line.
-/

namespace Stencil

/-- The name that a marker goes by: the command that its first one stands for. -/
def Aliases.nameOf? (as : Aliases) (payload : List Char) : Option String :=
  match Payload.read payload with
  | .ok (c :: _) => some (as.target c.name)
  | _ => none

theorem Aliases.target_eq (as : Aliases) (c : Command) : as.target c.name = (as.expand c).name := by
  rw [target, expand]
  cases as.get? c.name <;> rfl

def Aliases.Says (as : Aliases) (payload : List Char) (c : Command) : Prop :=
  ∃ cs, Payload.read payload = .ok cs ∧ c ∈ cs.map as.expand

theorem Aliases.says_of_nameOf? {as : Aliases} {p : List Char} {name : String} (h : as.nameOf? p = some name) :
    ∃ c, as.Says p c ∧ c.name = name := by
  rw [nameOf?] at h
  split at h
  · next c cs hread => exact ⟨as.expand c, ⟨_, hread, List.mem_cons_self ..⟩, (as.target_eq c).symm.trans (Option.some.inj h)⟩
  · cases h

namespace Piece

def isMarker : Piece → Bool
  | marker _ => true
  | _ => false

/-- Pieces up to the first marker, its payload, and the pieces behind it. -/
def breakMarker? : List Piece → Option (List Piece × List Char × List Piece)
  | [] => none
  | marker p :: qs => some ([], p, qs)
  | q :: qs => (breakMarker? qs).map fun (front, p, back) ↦ (q :: front, p, back)

theorem breakMarker?_append {front : List Piece} (h : ∀ q ∈ front, q.isMarker = false) (p : List Char)
    (back : List Piece) : breakMarker? (front ++ marker p :: back) = some (front, p, back) := by
  induction front with
  | nil => rfl
  | cons q qs ih =>
    have hq := h q (List.mem_cons_self ..)
    have htail := ih fun x hx ↦ h x (List.mem_cons_of_mem _ hx)
    cases q with
    | marker => contradiction
    | words => simp only [List.cons_append, breakMarker?, htail, Option.map_some]
    | image => simp only [List.cons_append, breakMarker?, htail, Option.map_some]

theorem breakMarker?_none {qs : List Piece} (h : ∀ q ∈ qs, q.isMarker = false) : breakMarker? qs = none := by
  induction qs with
  | nil => rfl
  | cons q qs ih =>
    have hq := h q (List.mem_cons_self ..)
    have htail := ih fun x hx ↦ h x (List.mem_cons_of_mem _ hx)
    cases q with
    | marker => contradiction
    | words => simp only [breakMarker?, htail, Option.map_none]
    | image => simp only [breakMarker?, htail, Option.map_none]

theorem break_cases (qs : List Piece) : (∀ q ∈ qs, q.isMarker = false) ∨
    ∃ front p back, (∀ q ∈ front, q.isMarker = false) ∧ qs = front ++ marker p :: back := by
  induction qs with
  | nil => exact .inl (List.forall_mem_nil _)
  | cons q qs ih =>
    cases hq : q.isMarker with
    | true =>
      cases q with
      | marker p => exact .inr ⟨[], p, qs, List.forall_mem_nil _, rfl⟩
      | words s => cases hq
      | image attrs => cases hq
    | false =>
      rcases ih with hwords | ⟨front, p, back, hfront, rfl⟩
      · exact .inl (List.forall_mem_cons.2 ⟨hq, hwords⟩)
      · exact .inr ⟨q :: front, p, back, List.forall_mem_cons.2 ⟨hq, hfront⟩, rfl⟩

def markers (qs : List Piece) : ℕ := qs.countP isMarker

end Piece

abbrev Line := List Piece

/-- Where a closing marker stands: in the line that the search began in, or in a later one. -/
inductive Reach where
  | here (mid rest : Line)
  | there (first : Line) (mid : List Line) (front rest : Line) (below : List Line)

namespace Reach

open Selection (Nesting)

variable (as : Aliases) (openers : List String) (closer : String)

/-- A search along a line: the line cut at the closing marker, or the nesting behind the line. -/
def alongLine : Nesting → Line → (Line × Line) ⊕ Nesting
  | n, [] => .inr n
  | n, .marker p :: qs =>
    if n.closes closer (as.nameOf? p) then .inl ([], qs)
    else match alongLine (n.pass openers closer (as.nameOf? p)) qs with
      | .inl (front, back) => .inl (.marker p :: front, back)
      | .inr n => .inr n
  | n, q :: qs => match alongLine n qs with
    | .inl (front, back) => .inl (q :: front, back)
    | .inr n => .inr n

/-- A search along lines: the lines passed, the line cut at the closing marker, and those below. -/
def alongLines : Nesting → List Line → Option (List Line × Line × Line × List Line)
  | _, [] => none
  | n, l :: ls => match alongLine as openers closer n l with
    | .inl (front, back) => some ([], front, back, ls)
    | .inr n => (alongLines n ls).map fun (mid, front, back, below) ↦ (l :: mid, front, back, below)

def seek? (n : Nesting) (right : Line) (below : List Line) : Option Reach :=
  match alongLine as openers closer n right with
  | .inl (mid, rest) => some (here mid rest)
  | .inr n => (alongLines as openers closer n below).map fun (mid, front, rest, below) ↦
    there right mid front rest below

variable {as openers closer}

theorem alongLine_append {front : Line} (h : ∀ q ∈ front, q.isMarker = false) (n : Nesting) (back : Line) :
    alongLine as openers closer n (front ++ back) = match alongLine as openers closer n back with
      | .inl (mid, rest) => .inl (front ++ mid, rest)
      | .inr n => .inr n := by
  induction front with
  | nil =>
    rw [List.nil_append]
    rcases alongLine as openers closer n back with ⟨_, _⟩ | _ <;> rfl
  | cons q qs ih =>
    have hq := h q (List.mem_cons_self ..)
    have htail := ih fun x hx ↦ h x (List.mem_cons_of_mem _ hx)
    have hcons : alongLine as openers closer n (q :: (qs ++ back)) =
        match alongLine as openers closer n (qs ++ back) with
        | .inl (front, back) => .inl (q :: front, back)
        | .inr n => .inr n := by
      cases q with
      | marker => contradiction
      | words => rfl
      | image => rfl
    rw [List.cons_append, hcons, htail]
    rcases alongLine as openers closer n back with ⟨_, _⟩ | _ <;> rfl

theorem alongLine_words {qs : Line} (h : ∀ q ∈ qs, q.isMarker = false) (n : Nesting) :
    alongLine as openers closer n qs = .inr n := by
  have := @alongLine_append as openers closer _ h n []
  rwa [List.append_nil] at this

theorem alongLines_append {front : List Line} (h : ∀ l ∈ front, ∀ q ∈ l, q.isMarker = false) (n : Nesting)
    (back : List Line) : alongLines as openers closer n (front ++ back) =
      (alongLines as openers closer n back).map fun (mid, a, b, below) ↦ (front ++ mid, a, b, below) := by
  induction front with
  | nil => simp
  | cons l ls ih =>
    have hl := h l (List.mem_cons_self ..)
    have htail := ih fun x hx ↦ h x (List.mem_cons_of_mem _ hx)
    simp only [List.cons_append, alongLines, alongLine_words hl, htail]
    cases alongLines as openers closer n back <;> rfl

theorem alongLines_words {ls : List Line} (h : ∀ l ∈ ls, ∀ q ∈ l, q.isMarker = false) (n : Nesting) :
    alongLines as openers closer n ls = none := by
  have := @alongLines_append as openers closer _ h n []
  rwa [List.append_nil] at this

theorem alongLine_closes {n : Nesting} {p : List Char} (h : n.closes closer (as.nameOf? p) = true) {front : Line}
    (hfront : ∀ q ∈ front, q.isMarker = false) (back : Line) :
    alongLine as openers closer n (front ++ .marker p :: back) = .inl (front, back) := by
  rw [alongLine_append hfront, alongLine, if_pos h]
  simp

theorem alongLine_passes {n : Nesting} {p : List Char} (h : n.closes closer (as.nameOf? p) = false) {front : Line}
    (hfront : ∀ q ∈ front, q.isMarker = false) (back : Line) :
    alongLine as openers closer n (front ++ .marker p :: back) =
      match alongLine as openers closer (n.pass openers closer (as.nameOf? p)) back with
      | .inl (mid, rest) => .inl (front ++ .marker p :: mid, rest)
      | .inr n => .inr n := by
  rw [alongLine_append hfront, alongLine, if_neg (by simp [h])]
  rcases alongLine as openers closer (n.pass openers closer (as.nameOf? p)) back with ⟨_, _⟩ | _ <;> rfl

/-- A reach from behind a marker, seen from before it in the same line. -/
def extend (front : Line) : Reach → Reach
  | here mid rest => here (front ++ mid) rest
  | there first mid a b below => there (front ++ first) mid a b below

/-- A reach from within a line below, seen from the line above. -/
def extendBelow (first : Line) (mid : List Line) (front : Line) (below : List Line) : Reach → Reach
  | here a rest => there first mid (front ++ a) rest below
  | there a mid' b rest below' => there first (mid ++ (front ++ a) :: mid') b rest below'

section Seek

variable {n : Nesting} {p : List Char} {front : Line} (hfront : ∀ q ∈ front, q.isMarker = false) (back : Line)

include hfront

theorem seek?_closes (h : n.closes closer (as.nameOf? p) = true) (below : List Line) :
    seek? as openers closer n (front ++ .marker p :: back) below = some (here front back) := by
  rw [seek?, alongLine_closes h hfront]

theorem seek?_passes (h : n.closes closer (as.nameOf? p) = false) (below : List Line) :
    seek? as openers closer n (front ++ .marker p :: back) below =
      (seek? as openers closer (n.pass openers closer (as.nameOf? p)) back below).map
        (extend (front ++ [.marker p])) := by
  rw [seek?, alongLine_passes h hfront, seek?]
  rcases alongLine as openers closer (n.pass openers closer (as.nameOf? p)) back with ⟨mid, rest⟩ | n'
  · simp [extend]
  · dsimp only
    cases alongLines as openers closer n' below with
    | none => rfl
    | some found => simp [extend]

variable {right : Line} (hright : ∀ q ∈ right, q.isMarker = false) {mid : List Line}
  (hmid : ∀ l ∈ mid, ∀ q ∈ l, q.isMarker = false) (below : List Line)

include hright hmid

theorem seek?_below_closes (h : n.closes closer (as.nameOf? p) = true) :
    seek? as openers closer n right (mid ++ (front ++ .marker p :: back) :: below) =
      some (there right mid front back below) := by
  simp only [seek?, alongLine_words hright, alongLines_append hmid, alongLines, alongLine_closes h hfront,
    Option.map_some, List.append_nil]

theorem seek?_below_passes (h : n.closes closer (as.nameOf? p) = false) :
    seek? as openers closer n right (mid ++ (front ++ .marker p :: back) :: below) =
      (seek? as openers closer (n.pass openers closer (as.nameOf? p)) back below).map
        (extendBelow right mid (front ++ [.marker p]) below) := by
  simp only [seek?, alongLine_words hright, alongLines_append hmid, alongLines, alongLine_passes h hfront]
  rcases alongLine as openers closer (n.pass openers closer (as.nameOf? p)) back with ⟨a, rest⟩ | n'
  · simp [extendBelow]
  · dsimp only
    cases alongLines as openers closer n' below with
    | none => rfl
    | some found => simp [extendBelow]

end Seek

theorem seek?_words {n : Nesting} {right : Line} {below : List Line} (hright : ∀ q ∈ right, q.isMarker = false)
    (hbelow : ∀ l ∈ below, ∀ q ∈ l, q.isMarker = false) : seek? as openers closer n right below = none := by
  simp only [seek?, alongLine_words hright, alongLines_words hbelow, Option.map_none]

end Reach

end Stencil
