import Stencil.Proofs.Payload.Sealed
/-!
The pieces of a text: the markers in it, and the words between them. Cutting the first marker out
leaves words in front of it and the pieces behind it, so that it does not matter when markers are
cut out.
-/

namespace Stencil

namespace Text

variable {p s t : List Char}

theorem stripPrefix?_append_left {r : List Char} (h : stripPrefix? p s = some r) (t : List Char) :
    stripPrefix? p (s ++ t) = some (r ++ t) := by
  rw [eq_append_of_stripPrefix? h, List.append_assoc, stripPrefix?_append]

/-- Whether text starts with `p` is seen on as many characters of it. -/
theorem stripPrefix?_none_append (hlen : p.length ≤ s.length) (h : stripPrefix? p (s ++ t) = none)
    (u : List Char) : stripPrefix? p (s ++ u) = none := by
  induction p generalizing s with
  | nil => simp [stripPrefix?] at h
  | cons c p ih =>
    cases s with
    | nil => simp at hlen
    | cons d s =>
      rw [List.cons_append, stripPrefix?] at h ⊢
      split
      · next heq =>
        rw [if_pos heq] at h
        exact ih (by simpa using hlen) h
      · rfl

/-- Text that does not start with `p` does not come to do so by what follows it, when this begins with no
character of `p`. -/
theorem stripPrefix?_none_of_disjoint {e : List Char} (he : ∀ c ∈ e.head?, c ∉ p) (h : stripPrefix? p s = none) :
    stripPrefix? p (s ++ e) = none := by
  induction p generalizing s with
  | nil => simp [stripPrefix?] at h
  | cons d p ih =>
    cases s with
    | nil =>
      cases e with
      | nil => rfl
      | cons c e =>
        have hne : d ≠ c := fun heq ↦ he c rfl (heq ▸ List.mem_cons_self)
        rw [List.nil_append, stripPrefix?, if_neg hne]
    | cons x s =>
      rw [List.cons_append]
      rw [stripPrefix?] at h ⊢
      split
      · next heq =>
        rw [if_pos heq] at h
        exact ih (fun c hc hcp ↦ he c hc (List.mem_cons_of_mem _ hcp)) h
      · rfl

theorem breakOn?_append {a b : List Char} (h : breakOn? p s = some (a, b)) (t : List Char) :
    breakOn? p (a ++ p ++ t) = some (a, t) := by
  induction s generalizing a with
  | nil =>
    rw [breakOn?] at h
    split at h
    · next hp =>
      obtain ⟨rfl, rfl⟩ := by simpa using h
      obtain rfl := List.isEmpty_iff.1 hp
      cases t <;> simp [breakOn?, stripPrefix?]
    · contradiction
  | cons c s ih =>
    rw [breakOn?] at h
    split at h
    · next r hr =>
      obtain ⟨rfl, rfl⟩ := by simpa using h
      rw [List.nil_append]
      cases p with
      | nil => cases t <;> simp [breakOn?, stripPrefix?]
      | cons d p =>
        rw [List.cons_append, breakOn?, ← List.cons_append, stripPrefix?_append]
    · next hstrip =>
      obtain ⟨⟨a', b'⟩, hq, he⟩ := Option.map_eq_some_iff.1 h
      obtain ⟨rfl, rfl⟩ : c :: a' = a ∧ b' = b := by simpa using he
      have hs := eq_append_of_breakOn? hq
      have hnone : stripPrefix? p (c :: a' ++ p ++ t) = none := by
        refine stripPrefix?_none_append (t := b') (by simp; omega) ?_ t
        rw [List.cons_append, List.cons_append, ← hs]
        exact hstrip
      rw [List.cons_append, List.cons_append] at hnone ⊢
      rw [breakOn?, hnone, ih hq]
      rfl

theorem breakOn?_self_append (p t : List Char) : breakOn? p (p ++ t) = some ([], t) := by
  cases p with
  | nil => cases t <;> simp [breakOn?, stripPrefix?]
  | cons d p => rw [List.cons_append, breakOn?, ← List.cons_append, stripPrefix?_append]

theorem breakOn?_left {a b : List Char} (hp : p ≠ []) (h : breakOn? p s = some (a, b)) :
    breakOn? p a = none := by
  induction s generalizing a with
  | nil =>
    rw [breakOn?] at h
    simp [hp] at h
  | cons c s ih =>
    rw [breakOn?] at h
    split at h
    · obtain ⟨rfl, rfl⟩ := by simpa using h
      simp [breakOn?, hp]
    · next hstrip =>
      obtain ⟨⟨a', b'⟩, hq, he⟩ := Option.map_eq_some_iff.1 h
      obtain ⟨rfl, rfl⟩ : c :: a' = a ∧ b' = b := by simpa using he
      have hs := eq_append_of_breakOn? hq
      have hnone : stripPrefix? p (c :: a') = none := by
        cases hsome : stripPrefix? p (c :: a') with
        | none => rfl
        | some r =>
          have := stripPrefix?_append_left hsome (p ++ b')
          rw [List.cons_append, ← List.append_assoc, ← hs, hstrip] at this
          contradiction
      rw [breakOn?, hnone, ih hq]
      rfl

end Text

namespace Payload

variable {closing s p a : List Char} {q : Quoting} {depth : ℕ}

/-- How deep a character leads; only outside of quotes does it count. -/
def Quoting.deepen (q : Quoting) (depth : ℕ) (c : Char) : ℕ := if q = .outside then Payload.deepen depth c else depth

theorem close_cons {c : Char} (h : q = .outside ∧ depth = 0 → Text.stripPrefix? closing (c :: s) = none) :
    close closing q depth (c :: s) = (close closing (q.step c) (q.deepen depth c) s).map fun p ↦ (c :: p.1, p.2) := by
  by_cases hq : q = .outside
  · subst hq
    rw [close_outside fun hdepth ↦ h ⟨rfl, hdepth⟩, Quoting.deepen, if_pos rfl]
  · rw [close_inside hq, Quoting.deepen, if_neg hq]

theorem close_cons_iff {c : Char} : close closing q depth (c :: s) = some (c :: p, a) ↔
    (q = .outside ∧ depth = 0 → Text.stripPrefix? closing (c :: s) = none) ∧
      close closing (q.step c) (q.deepen depth c) s = some (p, a) := by
  by_cases hstrip : q = .outside ∧ depth = 0 → Text.stripPrefix? closing (c :: s) = none
  · rw [close_cons hstrip, and_iff_right hstrip]
    simp [Prod.ext_iff]
  · obtain ⟨rfl, rfl, hsome⟩ : q = .outside ∧ depth = 0 ∧ Text.stripPrefix? closing (c :: s) ≠ none := by
      simpa using hstrip
    obtain ⟨r, hr⟩ := Option.ne_none_iff_exists'.1 hsome
    rw [close, if_pos rfl, hr]
    simp

theorem close_nil_iff (hne : closing ≠ []) :
    close closing q depth (closing ++ a) = some ([], a) ↔ q = .outside ∧ depth = 0 := by
  obtain ⟨c, s, rfl⟩ := List.exists_cons_of_ne_nil hne
  by_cases hzero : q = .outside ∧ depth = 0
  · obtain ⟨rfl, rfl⟩ := hzero
    rw [List.cons_append, close, if_pos rfl, ← List.cons_append, Text.stripPrefix?_append]
    simp
  · rw [List.cons_append, close_cons fun h ↦ absurd h hzero]
    simp [hzero]

theorem close_eq_append (h : close closing q depth s = some (p, a)) : s = p ++ closing ++ a := by
  induction s generalizing q depth p with
  | nil => simp [close] at h
  | cons c s ih =>
    have hinner : ∀ {q' depth'}, (close closing q' depth' s).map (fun p ↦ (c :: p.1, p.2)) = some (p, a) →
        c :: s = p ++ closing ++ a := by
      intro q' depth' hmap
      obtain ⟨⟨p', a'⟩, hclose, he⟩ := Option.map_eq_some_iff.1 hmap
      obtain ⟨rfl, rfl⟩ : c :: p' = p ∧ a' = a := by simpa using he
      simp [ih hclose]
    by_cases hq : q = .outside
    · subst hq
      rw [close] at h
      dsimp only at h
      split at h
      · next r hr =>
        obtain ⟨rfl, rfl⟩ : [] = p ∧ r = a := by simpa using h
        split at hr
        · simpa using Text.eq_append_of_stripPrefix? hr
        · contradiction
      · exact hinner h
    · rw [close_inside hq] at h
      exact hinner h

/-- What follows a marker has no part in where it is closed. -/
theorem close_append (h : close closing q depth s = some (p, a)) (t : List Char) :
    close closing q depth (s ++ t) = some (p, a ++ t) := by
  induction s generalizing q depth p with
  | nil => simp [close] at h
  | cons c s ih =>
    rw [List.cons_append]
    by_cases hq : q = .outside
    · subst hq
      by_cases hstrip : depth = 0 ∧ ∃ r, Text.stripPrefix? closing (c :: s) = some r
      · obtain ⟨rfl, r, hr⟩ := hstrip
        rw [close, if_pos rfl, hr] at h
        obtain ⟨rfl, rfl⟩ : [] = p ∧ r = a := by simpa using h
        have hr' := Text.stripPrefix?_append_left hr t
        rw [List.cons_append] at hr'
        rw [close, if_pos rfl, hr']
      · have hnone : depth = 0 → Text.stripPrefix? closing (c :: s) = none := fun hd ↦ by
          cases hs : Text.stripPrefix? closing (c :: s) with
          | none => rfl
          | some r => exact absurd ⟨hd, r, hs⟩ hstrip
        rw [close_outside hnone] at h
        obtain ⟨⟨p', a'⟩, hclose, he⟩ := Option.map_eq_some_iff.1 h
        obtain ⟨rfl, rfl⟩ : c :: p' = p ∧ a' = a := by simpa using he
        have hlen : closing.length ≤ (c :: s).length := by
          have := congrArg List.length (close_eq_append hclose)
          simp only [List.length_append, List.length_cons] at this ⊢
          omega
        have hnone' : depth = 0 → Text.stripPrefix? closing (c :: (s ++ t)) = none := fun hd ↦
          Text.stripPrefix?_none_append (t := []) hlen (by simpa using hnone hd) t
        rw [close_outside hnone', ih hclose]
        rfl
    · rw [close_inside hq] at h ⊢
      obtain ⟨⟨p', a'⟩, hclose, he⟩ := Option.map_eq_some_iff.1 h
      obtain ⟨rfl, rfl⟩ : c :: p' = p ∧ a' = a := by simpa using he
      rw [ih hclose]
      rfl

theorem close_enclosed (hne : closing ≠ []) (h : close closing q depth s = some (p, a)) (t : List Char) :
    close closing q depth (p ++ closing ++ t) = some (p, t) := by
  obtain rfl := close_eq_append h
  induction p generalizing q depth with
  | nil => exact (close_nil_iff hne).2 ((close_nil_iff hne).1 h)
  | cons c p ih =>
    rw [List.cons_append, List.cons_append, close_cons_iff] at h ⊢
    refine ⟨fun hzero ↦ ?_, ih h.2⟩
    exact Text.stripPrefix?_none_append (s := c :: (p ++ closing)) (by simp; omega) (h.1 hzero) t

end Payload

namespace Delimiters

open Payload

structure Proper (d : Delimiters) : Prop where
  opening : d.opening.toList ≠ []
  closing : d.closing.toList ≠ []

theorem proper_default : Delimiters.default.Proper := ⟨by decide, by decide⟩

variable {d : Delimiters} {s : List Char} {c : Cut}

theorem cutWithin_eq (hopening : d.opening.toList ≠ []) : ∀ (n : ℕ) (s : List Char), s.length < n →
    cutWithin d.opening.toList d.closing.toList n s = d.cut? s := by
  have hfuel : ∀ (m n : ℕ) (s : List Char), s.length < m → s.length < n →
      cutWithin d.opening.toList d.closing.toList m s = cutWithin d.opening.toList d.closing.toList n s := by
    intro m
    induction m with
    | zero =>
      intro n s h
      omega
    | succ m ih =>
      intro n s hm hn
      obtain ⟨n, rfl⟩ : ∃ k, n = k + 1 := ⟨n - 1, by omega⟩
      rw [cutWithin, cutWithin]
      cases hbreak : Text.breakOn? d.opening.toList s with
      | none => rfl
      | some ar =>
        obtain ⟨a, r⟩ := ar
        have hlen := congrArg List.length (Text.eq_append_of_breakOn? hbreak)
        have hpos := List.length_pos_iff.2 hopening
        simp only [List.length_append] at hlen
        dsimp only
        rw [ih n r (by omega) (by omega)]
  exact fun n s h ↦ hfuel n (s.length + 1) s h (Nat.lt_succ_self _)

theorem cut?_of_break {a r : List Char} (hopening : d.opening.toList ≠ []) (h : Text.breakOn? d.opening.toList s = some (a, r)) :
    d.cut? s = match close d.closing.toList .outside 0 r with
      | some (p, b) => some ⟨a, p, b⟩
      | none => (d.cut? r).map fun c ↦ { c with before := a ++ d.opening.toList ++ c.before } := by
  have hlen := congrArg List.length (Text.eq_append_of_breakOn? h)
  have hpos := List.length_pos_iff.2 hopening
  simp only [List.length_append] at hlen
  have hrest := cutWithin_eq hopening s.length r (by omega)
  cases hclose : close d.closing.toList .outside 0 r <;> simp only [cut?, cutWithin, h, hclose, hrest]

theorem cut?_of_break_none (h : Text.breakOn? d.opening.toList s = none) : d.cut? s = none := by
  rw [cut?, cutWithin, h]

/-- How a cut comes about: at the first opening delimiter, or behind it when it is not closed. -/
theorem cut?_induction (hd : d.Proper) {motive : List Char → Cut → Prop}
    (here : ∀ s a r p b, Text.breakOn? d.opening.toList s = some (a, r) →
      close d.closing.toList .outside 0 r = some (p, b) → motive s ⟨a, p, b⟩)
    (behind : ∀ s a r c, Text.breakOn? d.opening.toList s = some (a, r) →
      close d.closing.toList .outside 0 r = none → d.cut? r = some c → motive r c →
      motive s { c with before := a ++ d.opening.toList ++ c.before })
    (h : d.cut? s = some c) : motive s c := by
  induction hn : s.length using Nat.strong_induction_on generalizing s c with
  | _ n ih =>
    cases hbreak : Text.breakOn? d.opening.toList s with
    | none =>
      rw [cut?_of_break_none hbreak] at h
      contradiction
    | some ar =>
      obtain ⟨a, r⟩ := ar
      rw [cut?_of_break hd.opening hbreak] at h
      cases hclose : close d.closing.toList .outside 0 r with
      | some pb =>
        rw [hclose] at h
        obtain rfl := Option.some.inj h
        exact here _ _ _ _ _ hbreak hclose
      | none =>
        rw [hclose] at h
        obtain ⟨c', hcut, rfl⟩ := Option.map_eq_some_iff.1 h
        have hlen := congrArg List.length (Text.eq_append_of_breakOn? hbreak)
        have hpos := List.length_pos_iff.2 hd.opening
        simp only [List.length_append] at hlen
        exact behind _ _ _ _ hbreak hclose hcut (ih r.length (by omega) hcut rfl)

theorem cut?_eq_append (h : d.cut? s = some c) : s = c.before ++ d.enclose c.payload ++ c.after := by
  have hwithin : ∀ (n : ℕ) (s : List Char) (c : Cut), cutWithin d.opening.toList d.closing.toList n s = some c →
      s = c.before ++ d.enclose c.payload ++ c.after := by
    intro n
    induction n with
    | zero =>
      intro s c h
      simp [cutWithin] at h
    | succ n ih =>
      intro s c h
      rw [cutWithin] at h
      split at h
      · contradiction
      · next a r hbreak =>
        rw [Text.eq_append_of_breakOn? hbreak]
        split at h
        · next p b hclose =>
          obtain rfl := Option.some.inj h
          simp [enclose, close_eq_append hclose]
        · obtain ⟨c', hcut, rfl⟩ := Option.map_eq_some_iff.1 h
          rw [ih r c' hcut]
          simp
  exact hwithin _ _ _ h

theorem cut?_before (hd : d.Proper) (h : d.cut? s = some c) : d.cut? c.before = none := by
  refine cut?_induction hd (motive := fun _ c ↦ d.cut? c.before = none) ?_ ?_ h
  · intro s a r p b hbreak _
    exact cut?_of_break_none (Text.breakOn?_left hd.opening hbreak)
  · intro s a r c hbreak hclose hcut ih
    have hnone : close d.closing.toList .outside 0 c.before = none := by
      cases hsome : close d.closing.toList .outside 0 c.before with
      | none => rfl
      | some pb =>
        have happend := close_append hsome (d.enclose c.payload ++ c.after)
        rw [← List.append_assoc, ← cut?_eq_append hcut, hclose] at happend
        contradiction
    dsimp only
    rw [cut?_of_break hd.opening (Text.breakOn?_append hbreak c.before), hnone, ih]
    rfl

theorem exists_close (h : d.cut? s = some c) : ∃ r, close d.closing.toList .outside 0 r = some (c.payload, c.after) := by
  have hwithin : ∀ (n : ℕ) (s : List Char) (c : Cut), cutWithin d.opening.toList d.closing.toList n s = some c →
      ∃ r, close d.closing.toList .outside 0 r = some (c.payload, c.after) := by
    intro n
    induction n with
    | zero =>
      intro s c h
      simp [cutWithin] at h
    | succ n ih =>
      intro s c h
      rw [cutWithin] at h
      split at h
      · contradiction
      · next r _ =>
        split at h
        · next hclose =>
          obtain rfl := Option.some.inj h
          exact ⟨r, hclose⟩
        · obtain ⟨c', hcut, rfl⟩ := Option.map_eq_some_iff.1 h
          exact ih _ c' hcut
  exact hwithin _ _ _ h

/-- A text between the delimiters is one marker exactly when the search that begins at its payload ends with it. -/
theorem payload?_enclose_iff (hd : d.Proper) {p : List Char} : d.payload? (d.enclose p) = some p ↔
    close d.closing.toList .outside 0 (p ++ d.closing.toList) = some (p, []) := by
  have hbreak := Text.breakOn?_self_append d.opening.toList (p ++ d.closing.toList)
  rw [payload?, enclose, List.append_assoc, cut?_of_break hd.opening hbreak]
  cases hclose : close d.closing.toList .outside 0 (p ++ d.closing.toList) with
  | none =>
    obtain ⟨c, o, ho⟩ := List.exists_cons_of_ne_nil hd.opening
    simp [ho]
  | some pb =>
    obtain ⟨q, t⟩ := pb
    cases t <;> simp

theorem eq_enclose_of_payload? {p : List Char} (h : d.payload? s = some p) : s = d.enclose p := by
  rw [payload?] at h
  split at h
  · next hcut =>
    obtain rfl := Option.some.inj h
    simpa using cut?_eq_append hcut
  · cases h

theorem isMarker_enclose_iff {p : List Char} : d.isMarker (d.enclose p) = true ↔ d.payload? (d.enclose p) = some p := by
  rw [isMarker, Option.isSome_iff_exists]
  constructor
  · rintro ⟨q, hq⟩
    have hwhole : d.enclose p = d.enclose q := eq_enclose_of_payload? hq
    have hpq : p = q := by simpa [enclose] using hwhole
    rw [hq, hpq]
  · exact fun h ↦ ⟨p, h⟩

/-- A marker by itself is cut as it is in text. -/
theorem cut?_enclose (hclosing : d.closing.toList ≠ []) (h : d.cut? s = some c) :
    d.cut? (d.enclose c.payload) = some ⟨[], c.payload, []⟩ := by
  obtain ⟨r, hclose⟩ := exists_close h
  have hclose' := close_enclosed hclosing hclose []
  rw [List.append_nil] at hclose'
  rw [cut?, cutWithin, enclose, List.append_assoc, Text.breakOn?_self_append]
  dsimp only
  rw [hclose']

theorem payload?_enclose (hclosing : d.closing.toList ≠ []) (h : d.cut? s = some c) :
    d.payload? (d.enclose c.payload) = some c.payload := by
  rw [payload?, cut?_enclose hclosing h]

/-- A payload that the search passes over is found whole between the delimiters, whatever follows. -/
theorem cut?_enclose_level (hclosing : EndsBracket d.closing.toList) {p : List Char} (h : Level p) (r : List Char) :
    d.cut? (d.enclose p ++ r) = some ⟨[], p, r⟩ := by
  have hclose : close d.closing.toList .outside 0 (d.closing.toList ++ r) = some ([], r) := by
    obtain ⟨c, s, hcs, _⟩ := hclosing
    rw [hcs, List.cons_append, close, if_pos rfl, ← List.cons_append, Text.stripPrefix?_append]
  rw [cut?, enclose, List.append_assoc, List.append_assoc, cutWithin, Text.breakOn?_self_append]
  simp only [h _ hclosing, hclose, Option.map_some, List.append_nil]

theorem markerFrom?_enclose_level (hclosing : EndsBracket d.closing.toList) {p : List Char} (h : Level p)
    (r : List Char) : d.markerFrom? (d.enclose p ++ r) 0 = some ⟨0, p⟩ := by
  rw [markerFrom?, Text.dropBytes?, Option.bind_some, cut?_enclose_level hclosing h]
  rfl

end Delimiters

/-- A piece of a line: words, the payload of a marker, or an image. -/
inductive Piece where
  | words (s : List Char)
  | marker (payload : List Char)
  | image (attrs : Entries String)
  deriving DecidableEq

namespace Delimiters

variable (d : Delimiters)

def wordsOf (s : List Char) : List Piece := if s.isEmpty then [] else [.words s]

/-- The pieces of a text. The first argument bounds the number of markers. -/
def piecesWithin : ℕ → List Char → List Piece
  | 0, s => [.words s]
  | n + 1, s => match d.cut? s with
    | none => [.words s]
    | some c => wordsOf c.before ++ .marker c.payload ::
      if c.after.isEmpty then [] else piecesWithin n c.after

def pieces (s : List Char) : List Piece := d.piecesWithin s.length s

variable {d} {s : List Char} {c : Payload.Cut}

theorem after_length (hd : d.Proper) (h : d.cut? s = some c) : c.after.length < s.length := by
  have hlen := congrArg List.length (cut?_eq_append h)
  have hpos := List.length_pos_iff.2 hd.opening
  simp only [enclose, List.length_append] at hlen
  omega

theorem piecesWithin_eq (hd : d.Proper) : ∀ (n : ℕ) (s : List Char), s.length ≤ n →
    d.piecesWithin n s = d.pieces s := by
  have hfuel : ∀ (m n : ℕ) (s : List Char), s.length ≤ m → s.length ≤ n →
      d.piecesWithin m s = d.piecesWithin n s := by
    have hzero : ∀ (n : ℕ) (s : List Char), s.length = 0 → d.piecesWithin n s = [.words s] := by
      intro n s hs
      cases n with
      | zero => rfl
      | succ n =>
        cases hcut : d.cut? s with
        | none => rw [piecesWithin, hcut]
        | some c =>
          have := after_length hd hcut
          omega
    intro m
    induction m with
    | zero =>
      intro n s hm _
      rw [hzero 0 s (by omega), hzero n s (by omega)]
    | succ m ih =>
      intro n s hm hn
      cases n with
      | zero => rw [hzero _ s (by omega), hzero 0 s (by omega)]
      | succ n =>
        rw [piecesWithin, piecesWithin]
        cases hcut : d.cut? s with
        | none => rfl
        | some c =>
          have := after_length hd hcut
          dsimp only
          rw [ih n c.after (by omega) (by omega)]
  exact fun n s h ↦ hfuel n s.length s h le_rfl

theorem pieces_words (h : d.cut? s = none) : d.pieces s = [.words s] := by
  rw [pieces]
  cases s.length with
  | zero => rfl
  | succ n => rw [piecesWithin, h]

theorem pieces_cut (hd : d.Proper) (h : d.cut? s = some c) :
    d.pieces s = wordsOf c.before ++ .marker c.payload ::
      if c.after.isEmpty then [] else d.pieces c.after := by
  have hlen := after_length hd h
  obtain ⟨n, hn⟩ : ∃ n, s.length = n + 1 := ⟨s.length - 1, by omega⟩
  rw [pieces, hn, piecesWithin, h]
  dsimp only
  rw [piecesWithin_eq hd n c.after (by omega)]

theorem pieces_enclose (hd : d.Proper) (h : d.cut? s = some c) :
    d.pieces (d.enclose c.payload) = [.marker c.payload] := by
  rw [pieces_cut hd (cut?_enclose hd.closing h)]
  rfl

end Delimiters

end Stencil
