import Stencil.Proofs.Payload.Pieces
/-!
The markers of a line do not depend on how the line ends. No marker reaches into a line's terminator,
since neither delimiter has a character of it.
-/

namespace Stencil

namespace Text

variable {p s e : List Char}

theorem breakOn?_none_of_disjoint (hne : p ≠ []) (hp : ∀ c ∈ e, c ∉ p) (h : breakOn? p s = none) :
    breakOn? p (s ++ e) = none := by
  have hempty : stripPrefix? p [] = none := by
    cases p with
    | nil => contradiction
    | cons => rfl
  induction s with
  | nil =>
    rw [List.nil_append]
    clear h
    induction e with
    | nil => rw [breakOn?, if_neg (by simpa using hne)]
    | cons c e ih =>
      have hstrip := stripPrefix?_none_of_disjoint (e := c :: e) (by simpa using hp c (by simp)) hempty
      rw [List.nil_append] at hstrip
      rw [breakOn?, hstrip, ih fun x hx ↦ hp x (List.mem_cons_of_mem _ hx)]
      rfl
  | cons c s ih =>
    rw [breakOn?] at h
    split at h
    · contradiction
    · next hstrip =>
      have hstrip' := stripPrefix?_none_of_disjoint (fun x hx ↦ hp x (List.mem_of_mem_head? hx)) hstrip
      rw [List.cons_append] at hstrip' ⊢
      rw [breakOn?, hstrip', ih (Option.map_eq_none_iff.1 h)]
      rfl

theorem chomp_append (line : List Char) : ∃ e, line = chomp line ++ e ∧ ∀ c ∈ e, c = '\n' ∨ c = '\r' := by
  rw [chomp]
  split
  · next r h => exact ⟨['\r', '\n'], by simpa using congrArg List.reverse h, by simp⟩
  · next r h => exact ⟨['\n'], by simpa using congrArg List.reverse h, by simp⟩
  · exact ⟨[], by simp, by simp⟩

end Text

namespace Payload

variable {closing s e : List Char} {q : Quoting} {depth : ℕ}

theorem close_none_of_disjoint (hne : closing ≠ []) (hclosing : ∀ c ∈ e, c ∉ closing)
    (h : close closing q depth s = none) : close closing q depth (s ++ e) = none := by
  have hempty : Text.stripPrefix? closing [] = none := by
    cases closing with
    | nil => contradiction
    | cons => rfl
  induction s generalizing q depth with
  | nil =>
    rw [List.nil_append]
    clear h
    induction e generalizing q depth with
    | nil => rw [close]
    | cons c e ih =>
      have hrest := fun {q depth} ↦ @ih (fun x hx ↦ hclosing x (List.mem_cons_of_mem _ hx)) q depth
      by_cases hq : q = .outside
      · subst hq
        have hstrip := Text.stripPrefix?_none_of_disjoint (e := c :: e) (by simpa using hclosing c (by simp)) hempty
        rw [List.nil_append] at hstrip
        rw [close_outside fun _ ↦ hstrip, hrest]
        rfl
      · rw [close_inside hq, hrest]
        rfl
  | cons c s ih =>
    rw [List.cons_append]
    by_cases hq : q = .outside
    · subst hq
      have hstrip : depth = 0 → Text.stripPrefix? closing (c :: s) = none := fun hd ↦ by
        cases hs : Text.stripPrefix? closing (c :: s) with
        | none => rfl
        | some r =>
          rw [close, if_pos hd, hs] at h
          contradiction
      rw [close_outside hstrip] at h
      have hstrip' : depth = 0 → Text.stripPrefix? closing (c :: (s ++ e)) = none := fun hd ↦
        Text.stripPrefix?_none_of_disjoint (fun x hx ↦ hclosing x (List.mem_of_mem_head? hx)) (hstrip hd)
      rw [close_outside hstrip', ih (Option.map_eq_none_iff.1 h)]
      rfl
    · rw [close_inside hq] at h ⊢
      rw [ih (Option.map_eq_none_iff.1 h)]
      rfl

end Payload

def Piece.payload? : Piece → Option (List Char)
  | marker p => some p
  | _ => none

def Piece.payloads (qs : List Piece) : List (List Char) := qs.filterMap Piece.payload?

theorem Piece.payloads_append (a b : List Piece) : payloads (a ++ b) = payloads a ++ payloads b :=
  List.filterMap_append

theorem Piece.payloads_marker (p : List Char) (qs : List Piece) : payloads (.marker p :: qs) = p :: payloads qs := rfl

theorem Piece.payloads_words {qs : List Piece} (h : ∀ q ∈ qs, q.payload? = none) : payloads qs = [] :=
  List.filterMap_eq_nil_iff.2 h

namespace Delimiters

open Payload

def payloads (d : Delimiters) (s : List Char) : List (List Char) := Piece.payloads (d.pieces s)

/-- Delimiters that cannot reach over the end of a line. -/
structure Inline (d : Delimiters) : Prop extends d.Proper where
  opening_inline : ∀ c ∈ d.opening.toList, c ≠ '\n' ∧ c ≠ '\r'
  closing_inline : ∀ c ∈ d.closing.toList, c ≠ '\n' ∧ c ≠ '\r'

theorem inline_default : Delimiters.default.Inline := ⟨proper_default, by simp [Delimiters.default], by simp [Delimiters.default]⟩

variable {d : Delimiters} {s e : List Char}

theorem payloads_words (h : d.cut? s = none) : d.payloads s = [] := by
  rw [payloads, pieces_words h]
  rfl

theorem payloads_nil (hd : d.Proper) : d.payloads [] = [] := by
  apply payloads_words
  rw [cut?_of_break_none]
  rw [Text.breakOn?, if_neg (by simpa using hd.opening)]

theorem payloads_cut {c : Cut} (hd : d.Proper) (h : d.cut? s = some c) :
    d.payloads s = c.payload :: d.payloads c.after := by
  have hwords : Piece.payloads (wordsOf c.before) = [] := by
    rw [wordsOf]
    split <;> rfl
  rw [payloads, pieces_cut hd h, Piece.payloads_append, hwords, List.nil_append, Piece.payloads_marker]
  split
  · next hafter =>
    rw [List.isEmpty_iff.1 hafter, payloads_nil hd]
    rfl
  · rfl

theorem markers_payload (hd : d.Proper) (s : List Char) : (d.markers s).map Marker.payload = d.payloads s := by
  have hfrom : ∀ (n i : ℕ) (s : List Char), s.length < n → (d.markersFrom n i s).map Marker.payload = d.payloads s := by
    intro n
    induction n with
    | zero =>
      intro i s h
      omega
    | succ n ih =>
      intro i s h
      rw [markersFrom]
      cases hcut : d.cut? s with
      | none => rw [payloads_words hcut, List.map_nil]
      | some c =>
        have hafter := after_length hd hcut
        rw [payloads_cut hd hcut, List.map_cons, ih _ _ (by omega)]
  exact hfrom _ _ _ (Nat.lt_succ_self _)

theorem cut?_append (hd : d.Proper) (hopening : ∀ c ∈ e, c ∉ d.opening.toList) (hclosing : ∀ c ∈ e, c ∉ d.closing.toList)
    (s : List Char) : d.cut? (s ++ e) = (d.cut? s).map fun c ↦ { c with after := c.after ++ e } := by
  induction hn : s.length using Nat.strong_induction_on generalizing s with
  | _ n ih =>
    subst hn
    cases hbreak : Text.breakOn? d.opening.toList s with
    | none =>
      rw [cut?_of_break_none hbreak, cut?_of_break_none (Text.breakOn?_none_of_disjoint hd.opening hopening hbreak)]
      rfl
    | some ar =>
      obtain ⟨a, r⟩ := ar
      have hs := Text.eq_append_of_breakOn? hbreak
      have hbreak' : Text.breakOn? d.opening.toList (s ++ e) = some (a, r ++ e) := by
        rw [hs, List.append_assoc]
        exact Text.breakOn?_append hbreak (r ++ e)
      have hlen := congrArg List.length hs
      have hpos := List.length_pos_iff.2 hd.opening
      simp only [List.length_append] at hlen
      rw [cut?_of_break hd.opening hbreak, cut?_of_break hd.opening hbreak']
      cases hclose : close d.closing.toList .outside 0 r with
      | some pb =>
        rw [close_append hclose e]
        rfl
      | none =>
        rw [close_none_of_disjoint hd.closing hclosing hclose, ih r.length (by omega) r rfl]
        cases d.cut? r <;> rfl

/-- What follows a text adds no marker, when it has no character of a delimiter. -/
theorem payloads_append (hd : d.Proper) (hopening : ∀ c ∈ e, c ∉ d.opening.toList)
    (hclosing : ∀ c ∈ e, c ∉ d.closing.toList) (s : List Char) : d.payloads (s ++ e) = d.payloads s := by
  induction hn : s.length using Nat.strong_induction_on generalizing s with
  | _ n ih =>
    subst hn
    have hcut' := cut?_append hd hopening hclosing s
    cases hcut : d.cut? s with
    | none =>
      rw [hcut] at hcut'
      rw [payloads_words hcut, payloads_words hcut']
    | some c =>
      rw [hcut] at hcut'
      rw [payloads_cut hd hcut, payloads_cut hd hcut', ih _ (after_length hd hcut) _ rfl]

/-- The terminator of a line has no part in its markers. -/
theorem payloads_chomp (hd : d.Inline) (line : List Char) : d.payloads (Text.chomp line) = d.payloads line := by
  obtain ⟨e, he, hend⟩ := Text.chomp_append line
  have hopening : ∀ c ∈ e, c ∉ d.opening.toList := fun c hc hin ↦ by
    have := hd.opening_inline c hin
    rcases hend c hc with rfl | rfl <;> simp at this
  have hclosing : ∀ c ∈ e, c ∉ d.closing.toList := fun c hc hin ↦ by
    have := hd.closing_inline c hin
    rcases hend c hc with rfl | rfl <;> simp at this
  conv_rhs => rw [he, payloads_append hd.toProper hopening hclosing]

end Delimiters

end Stencil
