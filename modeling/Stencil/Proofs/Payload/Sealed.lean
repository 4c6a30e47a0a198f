import Stencil.Proofs.Payload.Value
/-!
Text in which neither the search for the closing delimiter nor the cut at semicolons stops: quotes
and brackets in it are balanced, and what else it holds ends nothing.
-/

namespace Stencil.Payload

def prepend (s : List Char) : List (List Char) → List (List Char)
  | [] => [s]
  | p :: ps => (s ++ p) :: ps

theorem prepend_append (s t : List Char) (ps : List (List Char)) :
    prepend (s ++ t) ps = prepend s (prepend t ps) := by
  cases ps <;> simp [prepend]

theorem segments_ne_nil (q : Quoting) (s : List Char) : segments q s ≠ [] := by
  cases s with
  | nil => simp [segments]
  | cons c s =>
    rw [segments]
    split
    · simp
    · split <;> simp

theorem segments_cons {q : Quoting} {c : Char} (h : ¬ (q = .outside ∧ c = ';')) (s : List Char) :
    segments q (c :: s) = prepend [c] (segments (q.step c) s) := by
  rw [segments, if_neg h]
  rfl

/-- A closing delimiter that begins with a closing bracket. -/
def EndsBracket (closing : List Char) : Prop := ∃ c s, closing = c :: s ∧ (c = '\x7d' ∨ c = ']')

/-- Text that the search for the closing delimiter passes over. -/
def Level (s : List Char) : Prop := ∀ closing, EndsBracket closing → ∀ depth r,
  close closing .outside depth (s ++ r) = (close closing .outside depth r).map fun p ↦ (s ++ p.1, p.2)

/-- Text that leaves both scans where they were. -/
structure Sealed (s : List Char) : Prop where
  level : Level s
  whole : ∀ r, segments .outside (s ++ r) = prepend s (segments .outside r)

theorem close_inside {q : Quoting} (hq : q ≠ .outside) (closing : List Char) (depth : ℕ) (c : Char)
    (s : List Char) :
    close closing q depth (c :: s) = (close closing (q.step c) depth s).map fun p ↦ (c :: p.1, p.2) := by
  cases q with
  | outside => exact absurd rfl hq
  | inside _ => simp [close]
  | escaped _ => simp [close]

theorem close_outside {closing : List Char} {depth : ℕ} {c : Char} {s : List Char}
    (h : depth = 0 → Text.stripPrefix? closing (c :: s) = none) :
    close closing .outside depth (c :: s) =
      (close closing (Quoting.outside.step c) (deepen depth c) s).map fun p ↦ (c :: p.1, p.2) := by
  rw [close]
  by_cases hd : depth = 0
  · simp [hd, h hd]
  · simp [hd]

theorem EndsBracket.stripPrefix? {closing : List Char} (h : EndsBracket closing) {c : Char}
    (hc : c ≠ '\x7d' ∧ c ≠ ']') (s : List Char) : Text.stripPrefix? closing (c :: s) = none := by
  obtain ⟨d, t, rfl, hd⟩ := h
  have hne : d ≠ c := by
    rintro rfl
    exact hd.elim hc.1 hc.2
  rw [Text.stripPrefix?, if_neg hne]

namespace Level

theorem nil : Level [] := by
  intro closing _ depth r
  rw [List.nil_append]
  cases close closing .outside depth r <;> rfl

theorem append {s t : List Char} (hs : Level s) (ht : Level t) : Level (s ++ t) := by
  intro closing h depth r
  rw [List.append_assoc, hs closing h, ht closing h]
  cases close closing .outside depth r <;> simp

theorem char {c : Char} (hquote : c ≠ '"' ∧ c ≠ '\'') (hopen : c ≠ '\x7b' ∧ c ≠ '[') (hclose : c ≠ '\x7d' ∧ c ≠ ']') :
    Level [c] := by
  intro closing h depth r
  have hstep : Quoting.outside.step c = .outside := by simp [Quoting.step, hquote.1, hquote.2]
  have hdeep : deepen depth c = depth := by simp [deepen, hopen.1, hopen.2, hclose.1, hclose.2]
  rw [List.singleton_append, close_outside fun _ ↦ h.stripPrefix? hclose r, hstep, hdeep]
  rfl

end Level

namespace Sealed

theorem nil : Sealed [] where
  level := .nil
  whole r := by
    rw [List.nil_append]
    cases h : segments .outside r with
    | nil => exact absurd h (segments_ne_nil _ _)
    | cons p ps => rfl

theorem append {s t : List Char} (hs : Sealed s) (ht : Sealed t) : Sealed (s ++ t) where
  level := hs.level.append ht.level
  whole r := by rw [List.append_assoc, hs.whole, ht.whole, prepend_append]

/-- A character that is no quote, no bracket and no semicolon. -/
def Plain (c : Char) : Prop :=
  c ≠ '"' ∧ c ≠ '\'' ∧ c ≠ '\x7b' ∧ c ≠ '[' ∧ c ≠ '\x7d' ∧ c ≠ ']' ∧ c ≠ ';'

instance : DecidablePred Plain := fun c ↦
  inferInstanceAs (Decidable (c ≠ '"' ∧ c ≠ '\'' ∧ c ≠ '\x7b' ∧ c ≠ '[' ∧ c ≠ '\x7d' ∧ c ≠ ']' ∧ c ≠ ';'))

theorem char {c : Char} (h : Plain c) : Sealed [c] where
  level := by
    obtain ⟨h₁, h₂, h₃, h₄, h₅, h₆, _⟩ := h
    exact .char ⟨h₁, h₂⟩ ⟨h₃, h₄⟩ ⟨h₅, h₆⟩
  whole r := by
    obtain ⟨h₁, h₂, _, _, _, _, h₇⟩ := h
    have hstep : Quoting.outside.step c = .outside := by simp [Quoting.step, h₁, h₂]
    rw [List.singleton_append, segments_cons (by simp [h₇]), hstep]

theorem chars {s : List Char} (h : ∀ c ∈ s, Plain c) : Sealed s := by
  induction s with
  | nil => exact nil
  | cons c s ih => exact (char (h c (by simp))).append (ih fun d hd ↦ h d (by simp [hd]))

theorem close_escaped {q : Char} (hq : q ≠ '\\') {b : List Char} (h : Json.Escaped q b) (closing : List Char)
    (depth : ℕ) (r : List Char) : close closing (.inside q) depth (b ++ q :: r) =
      (close closing .outside depth r).map fun p ↦ (b ++ q :: p.1, p.2) := by
  induction h with
  | nil =>
    have hstep : Quoting.step (.inside q) q = .outside := by simp [Quoting.step, hq]
    rw [List.nil_append, close_inside (by simp), hstep]
    rfl
  | @plain c s h₁ h₂ _ ih =>
    have hstep : Quoting.step (.inside q) c = .inside q := by simp [Quoting.step, h₁, h₂]
    rw [List.cons_append, close_inside (by simp), hstep, ih]
    cases close closing .outside depth r <;> rfl
  | @pair c s _ _ ih =>
    have hback : Quoting.step (.inside q) '\\' = .escaped q := rfl
    have hstep : Quoting.step (.escaped q) c = .inside q := rfl
    rw [List.cons_append, List.cons_append, close_inside (by simp), hback, close_inside (by simp), hstep, ih]
    cases close closing .outside depth r <;> rfl

theorem segments_escaped {q : Char} (hq : q ≠ '\\') {b : List Char} (h : Json.Escaped q b) (r : List Char) :
    segments (.inside q) (b ++ q :: r) = prepend (b ++ [q]) (segments .outside r) := by
  induction h with
  | nil =>
    have hstep : Quoting.step (.inside q) q = .outside := by simp [Quoting.step, hq]
    rw [List.nil_append, segments_cons (by simp), hstep]
    rfl
  | @plain c s h₁ h₂ _ ih =>
    have hstep : Quoting.step (.inside q) c = .inside q := by simp [Quoting.step, h₁, h₂]
    rw [List.cons_append, segments_cons (by simp), hstep, ih, ← prepend_append]
    rfl
  | @pair c s _ _ ih =>
    have hback : Quoting.step (.inside q) '\\' = .escaped q := rfl
    have hstep : Quoting.step (.escaped q) c = .inside q := rfl
    rw [List.cons_append, List.cons_append, segments_cons (by simp), hback, segments_cons (by simp), hstep, ih,
      ← prepend_append, ← prepend_append]
    rfl

theorem string {q : Char} (hq : q = '"' ∨ q = '\'') {b : List Char} (h : Json.Escaped q b) :
    Sealed (q :: (b ++ [q])) where
  level closing hclosing depth r := by
    have hne : q ≠ '\\' := by rcases hq with rfl | rfl <;> decide
    have hbrace : q ≠ '\x7d' ∧ q ≠ ']' := by rcases hq with rfl | rfl <;> decide
    have hstep : Quoting.outside.step q = .inside q := by rcases hq with rfl | rfl <;> rfl
    have hdeep : deepen depth q = depth := by rcases hq with rfl | rfl <;> rfl
    have hesc := close_escaped hne h closing depth r
    rw [List.cons_append, List.append_assoc, List.singleton_append,
      close_outside (fun _ ↦ hclosing.stripPrefix? hbrace _), hstep, hdeep, hesc]
    cases close closing .outside depth r <;> simp
  whole r := by
    have hne : q ≠ '\\' := by rcases hq with rfl | rfl <;> decide
    have hsemi : q ≠ ';' := by rcases hq with rfl | rfl <;> decide
    have hstep : Quoting.outside.step q = .inside q := by rcases hq with rfl | rfl <;> rfl
    have hesc := segments_escaped hne h r
    rw [List.cons_append, List.append_assoc, List.singleton_append, segments_cons (by simp [hsemi]), hstep,
      hesc, ← prepend_append]
    rfl

theorem quote (s : List Char) : Sealed (Json.quote s) := string (.inl rfl) (Json.escaped_flatMap s)

theorem nest {s : List Char} (h : Sealed s) {o c : Char} (ho : o = '\x7b' ∨ o = '[')
    (hc : c = '\x7d' ∨ c = ']') : Sealed (o :: s ++ [c]) where
  level closing hcl depth r := by
    have hopen : Quoting.outside.step o = .outside := by rcases ho with rfl | rfl <;> rfl
    have hclose : Quoting.outside.step c = .outside := by rcases hc with rfl | rfl <;> rfl
    have hdown : deepen depth o = depth + 1 := by rcases ho with rfl | rfl <;> rfl
    have hup : deepen (depth + 1) c = depth := by rcases hc with rfl | rfl <;> rfl
    have hne : o ≠ '\x7d' ∧ o ≠ ']' := by rcases ho with rfl | rfl <;> decide
    rw [List.cons_append, List.cons_append, List.append_assoc, close_outside fun _ ↦ hcl.stripPrefix? hne _,
      hopen, hdown, h.level closing hcl, List.singleton_append, close_outside (by simp), hclose, hup]
    cases close closing .outside depth r <;> simp
  whole r := by
    have hopen : Quoting.outside.step o = .outside := by rcases ho with rfl | rfl <;> rfl
    have hclose : Quoting.outside.step c = .outside := by rcases hc with rfl | rfl <;> rfl
    have hsemi : o ≠ ';' ∧ c ≠ ';' := by
      constructor
      · rcases ho with rfl | rfl <;> decide
      · rcases hc with rfl | rfl <;> decide
    rw [List.cons_append, List.cons_append, List.append_assoc, segments_cons (by simp [hsemi.1]), hopen, h.whole,
      List.singleton_append, segments_cons (by simp [hsemi.2]), hclose, ← prepend_append, ← prepend_append]
    rfl

end Sealed

end Stencil.Payload
