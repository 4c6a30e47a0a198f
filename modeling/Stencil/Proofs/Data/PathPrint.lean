import Stencil.Proofs.Data.Cursor
/-!
Paths that were read, written and read again. The last step of a path that was read ends where its
text, without the blanks around it, ends; so only a blank in front can get lost.
-/

namespace Stencil

namespace Path

def Token.step? : Token → Option Step
  | .name s => some (.name (String.ofList s))
  | .variableName s => some (.variableName (String.ofList s))
  | .index n => some (.index n)
  | .parent => some .parent
  | .root => some .root
  | .dot => none
  | .unknown => none

def Token.Ends (t : Token) (s : List Char) : Prop :=
  ∀ w, t = .name w ∨ t = .variableName w → w.getLast? = s.getLast?

theorem Token.ends_of_not_name {t : Token} (h : ∀ w, t ≠ .name w ∧ t ≠ .variableName w) (s : List Char) :
    t.Ends s := fun w hw ↦ (hw.elim (h w).1 (h w).2).elim

/-- Reading a token puts its step behind the others, or leaves a dot open. -/
theorem assemble_cons {fail : ℕ → PathCause → PathError} {size i : ℕ} {done : List Step} {link : Link}
    {t : Token} {ts : List (ℕ × Token)} {p : Path}
    (h : assemble fail size done link ((i, t) :: ts) = .ok p) :
    t.step? = none ∧ assemble fail size done ⟨false, true⟩ ts = .ok p ∨
      ∃ s b, t.step? = some s ∧ assemble fail size (s :: done) ⟨b, false⟩ ts = .ok p := by
  cases t with
  | unknown => simp [assemble] at h
  | dot =>
    simp only [assemble] at h
    split at h
    · simp at h
    · exact .inl ⟨rfl, h⟩
  | name s =>
    simp only [assemble] at h
    split at h
    · simp at h
    · exact .inr ⟨_, _, rfl, h⟩
  | index n =>
    simp only [assemble] at h
    split at h
    · simp at h
    · exact .inr ⟨_, _, rfl, h⟩
  | variableName s =>
    simp only [assemble] at h
    split at h
    · simp at h
    · exact .inr ⟨_, _, rfl, h⟩
  | parent => exact .inr ⟨_, _, rfl, h⟩
  | root => exact .inr ⟨_, _, rfl, h⟩

theorem assemble_getLast {fail : ℕ → PathCause → PathError} {size : ℕ} {done : List Step} {link : Link}
    {ts : List (ℕ × Token)} {p : Path} (h : assemble fail size done link ts = .ok p) :
    ∀ t ∈ ts.getLast?, p.steps = [] ∨ p.steps.getLast? = t.2.step? := by
  induction ts generalizing done link with
  | nil => simp
  | cons t ts ih =>
    obtain ⟨i, t⟩ := t
    have hrest := assemble_cons h
    cases ts with
    | nil =>
      intro u hu
      obtain rfl : (i, t) = u := by simpa using hu
      rcases hrest with ⟨_, hread⟩ | ⟨s, b, hs, hread⟩
      · simp only [assemble, Bool.true_and] at hread
        split at hread
        · simp at hread
        · next hempty =>
          obtain rfl := Except.ok.inj hread
          exact .inl (by simpa using hempty)
      · obtain rfl := Except.ok.inj hread
        exact .inr (by simp [hs])
    | cons u us =>
      rw [List.getLast?_cons_cons]
      rcases hrest with ⟨_, hread⟩ | ⟨s, b, _, hread⟩
      · exact ih hread
      · exact ih hread

theorem getLast?_of_suffix {r s : List Char} (h : r <:+ s) (hne : r ≠ []) : r.getLast? = s.getLast? := by
  obtain ⟨t, rfl⟩ := h
  rw [List.getLast?_append_of_ne_nil _ hne]

theorem noGap_of_suffix {r s : List Char} (h : r <:+ s) (hs : ∀ c ∈ s.getLast?, isGap c = false) :
    ∀ c ∈ r.getLast?, isGap c = false := by
  intro c hc
  have hne : r ≠ [] := by
    rintro rfl
    simp at hc
  exact hs c (getLast?_of_suffix h hne ▸ hc)

theorem nextToken_last (c : Char) (s : List Char) :
    (nextToken c s).2 <:+ s ∧ ((nextToken c s).2 = [] → (nextToken c s).1.Ends (c :: s)) := by
  have hother : ∀ {t : Token}, (∀ w, t ≠ .name w ∧ t ≠ .variableName w) → ∀ {r : List Char}, r <:+ s →
      r <:+ s ∧ (r = [] → t.Ends (c :: s)) := fun ht r hr ↦ ⟨hr, fun _ ↦ Token.ends_of_not_name ht _⟩
  have hall : s.dropWhile isNameChar = [] → s.takeWhile isNameChar = s := fun h ↦ by
    simpa [h] using List.takeWhile_append_dropWhile (p := isNameChar) (l := s)
  unfold nextToken
  split_ifs with h₁ h₂ h₃ h₄ h₅ h₆
  · exact hother (by simp) (List.suffix_refl s)
  · exact hother (by simp) (List.suffix_refl s)
  · exact hother (by simp) (List.suffix_refl s)
  · split
    · next d ds r htake hdrop =>
      have hr : r <:+ s := (List.suffix_cons ']' r).trans (hdrop ▸ List.dropWhile_suffix _)
      simp only
      split
      · exact hother (by simp) hr
      · exact hother (by simp) hr
    · exact hother (by simp) (List.suffix_refl s)
  · split
    · exact hother (by simp) (List.suffix_refl s)
    · next d ds htake =>
      refine ⟨List.dropWhile_suffix _, fun hnil w hw ↦ ?_⟩
      have hs : d :: ds = s := by rw [← htake, hall hnil]
      obtain rfl : d :: ds = w := by simpa using hw
      rw [← hs, List.getLast?_cons_cons]
  · refine ⟨List.dropWhile_suffix _, fun hnil w hw ↦ ?_⟩
    obtain rfl : c :: s.takeWhile isNameChar = w := by simpa using hw
    rw [hall hnil]
  · exact hother (by simp) (List.suffix_refl s)

theorem tokensFrom_eq_nil {n i : ℕ} {s : List Char} (hn : s.length ≤ n)
    (hlast : ∀ c ∈ s.getLast?, isGap c = false) (h : tokensFrom n i s = []) : s = [] := by
  induction n generalizing i s with
  | zero => exact List.length_eq_zero_iff.1 (Nat.le_zero.1 hn)
  | succ n ih =>
    cases s with
    | nil => rfl
    | cons c s =>
      rw [tokensFrom] at h
      split at h
      · next hgap =>
        have hs := ih (Nat.le_of_succ_le_succ hn) (noGap_of_suffix (List.suffix_cons c s) hlast) h
        rw [hs] at hlast
        rw [hlast c rfl] at hgap
        simp at hgap
      · simp at h

theorem tokensFrom_last {n i : ℕ} {s : List Char} (hn : s.length ≤ n)
    (hlast : ∀ c ∈ s.getLast?, isGap c = false) : ∀ t ∈ (tokensFrom n i s).getLast?, t.2.Ends s := by
  induction n generalizing i s with
  | zero => simp [tokensFrom]
  | succ n ih =>
    cases s with
    | nil => simp [tokensFrom]
    | cons c s =>
      -- what is left behind a token or a gap ends as the whole does, unless nothing is left
      have hrest : ∀ r : List Char, r <:+ s → ∀ d ∈ r.getLast?, isGap d = false := fun r hr ↦
        noGap_of_suffix (hr.trans (List.suffix_cons c s)) hlast
      have hlen : ∀ r : List Char, r <:+ s → r.length ≤ n := fun r hr ↦
        hr.length_le.trans (Nat.le_of_succ_le_succ hn)
      have htail : ∀ (j : ℕ) (r : List Char), r <:+ s → ∀ t ∈ (tokensFrom n j r).getLast?, t.2.Ends (c :: s) := by
        intro j r hr t ht
        have hne : r ≠ [] := by
          rintro rfl
          cases n <;> simp [tokensFrom] at ht
        intro w hw
        rw [ih (hlen r hr) (hrest r hr) t ht w hw,
          getLast?_of_suffix (hr.trans (List.suffix_cons c s)) hne]
      rw [tokensFrom]
      split
      · exact htail _ s (List.suffix_refl s)
      · obtain ⟨hsuffix, hends⟩ := nextToken_last c s
        intro t ht
        cases hts : tokensFrom n (i + Text.width (c :: s) - Text.width (nextToken c s).2) (nextToken c s).2 with
        | nil =>
          simp only [hts, List.getLast?_singleton, Option.mem_some_iff] at ht
          subst ht
          exact hends (tokensFrom_eq_nil (hlen _ hsuffix) (hrest _ hsuffix) hts)
        | cons u us =>
          refine htail (i + Text.width (c :: s) - Text.width (nextToken c s).2) _ hsuffix t ?_
          rw [hts]
          simpa only [hts, List.getLast?_cons_cons] using ht

theorem isBlank_of_isGap {c : Char} (h : isGap c = true) : Text.isBlank c = true := by
  simp only [isGap, Bool.or_eq_true, beq_iff_eq] at h
  obtain ((rfl | rfl) | rfl) | rfl := h <;> rfl

/-- The last step of a path that was read does not end with a blank. -/
theorem parse_last {text : String} {p : Path} {s : Step} (h : parse text = .ok p)
    (hs : p.steps.getLast? = some s) (b : Bool) : Text.EndsInk (writeStep b s) := by
  have hmark : ∀ {c : Char} (u : List Char), Text.isBlank c = false → Text.EndsInk (u ++ [c]) := fun u hc ↦
    ⟨u, _, rfl, hc⟩
  simp only [parse] at h
  split at h
  · obtain rfl := Except.ok.inj h
    obtain rfl : Step.current = s := by simpa using hs
    exact hmark [] rfl
  · have hlast := (Text.trim_eq_self_iff.1 (Text.trim_trim text.toList)).2
    cases hts : (tokens (Text.trim text.toList)).getLast? with
    | none =>
      rw [List.getLast?_eq_none_iff.1 hts] at h
      obtain rfl := Except.ok.inj h
      simp at hs
    | some t =>
      have hends := tokensFrom_last le_rfl (fun c hc ↦ by
        cases hgap : isGap c with
        | false => rfl
        | true => exact absurd (hlast c hc) (by rw [isBlank_of_isGap hgap]; simp)) t hts
      have hword : ∀ w, (∃ c ∈ w, True) → w.getLast? = (Text.trim text.toList).getLast? → Text.EndsInk w := by
        rintro w ⟨d, hd, _⟩ heq
        have hne : w ≠ [] := List.ne_nil_of_mem hd
        refine ⟨w.dropLast, w.getLast hne, (List.dropLast_append_getLast hne).symm, hlast _ ?_⟩
        rw [← heq, List.getLast?_eq_some_getLast hne]
        rfl
      have hvalid := (tokensFrom_spec _ _ _).1 t (List.mem_of_getLast? hts)
      have hstep : t.2.step? = some s := by
        rcases assemble_getLast h t hts with hnil | heq
        · rw [hnil] at hs
          simp at hs
        · rw [← heq, hs]
      obtain ⟨i, t⟩ := t
      cases t with
      | name w =>
        obtain rfl := Option.some.inj hstep
        have hw := hword w (by obtain ⟨c, w', rfl⟩ := List.exists_cons_of_ne_nil hvalid.1; simp) (hends w (.inl rfl))
        rw [writeStep, String.toList_ofList]
        split
        · exact hw.append ['.']
        · exact hw
      | variableName w =>
        obtain rfl := Option.some.inj hstep
        have hw := hword w (by obtain ⟨c, w', rfl⟩ := List.exists_cons_of_ne_nil hvalid.1; simp) (hends w (.inr rfl))
        rw [writeStep, String.toList_ofList]
        exact hw.append ['$']
      | index n =>
        obtain rfl := Option.some.inj hstep
        exact hmark ('[' :: Decimal.natText n) rfl
      | parent =>
        obtain rfl := Option.some.inj hstep
        exact hmark [] rfl
      | root =>
        obtain rfl := Option.some.inj hstep
        exact hmark [] rfl
      | dot => simp [Token.step?] at hstep
      | unknown => simp [Token.step?] at hstep

theorem endsInk_writeSteps {steps : List Step} {s : Step} (hs : steps.getLast? = some s)
    (h : ∀ b, Text.EndsInk (writeStep b s)) (b : Bool) : Text.EndsInk (writeSteps b steps) := by
  induction steps generalizing b with
  | nil => simp at hs
  | cons t ts ih =>
    rw [writeSteps]
    cases ts with
    | nil =>
      obtain rfl : t = s := by simpa using hs
      simpa [writeSteps] using h b
    | cons u us => exact (ih (by rwa [List.getLast?_cons_cons] at hs) _).append _

theorem endsInk_display {p : Path} (h : ∀ s ∈ p.steps.getLast?, ∀ b, Text.EndsInk (writeStep b s)) :
    ∀ c ∈ p.display.toList.getLast?, Text.isBlank c = false := by
  rw [display, String.toList_ofList]
  intro c hc
  cases hs : p.steps.getLast? with
  | none =>
    rw [List.getLast?_eq_none_iff.1 hs] at hc
    simp [writeSteps] at hc
  | some s =>
    obtain ⟨u, d, hu, hd⟩ := endsInk_writeSteps hs (h s hs) false
    rw [hu] at hc
    obtain rfl : d = c := by simpa using hc
    exact hd

def BeginsBlank (p : Path) : Prop :=
  ∃ n rest c s, p.steps = .name n :: rest ∧ n.toList = c :: s ∧ Text.isBlank c = true

theorem head_display {p : Path} (h : p.steps = [.current] ∨ Regular p.steps) :
    (∀ c ∈ p.display.toList.head?, Text.isBlank c = false) ↔ ¬p.BeginsBlank := by
  rw [display, String.toList_ofList]
  obtain ⟨steps⟩ := p
  have hother : ∀ {c : Char} {s : Step} {ss : List Step}, Text.isBlank c = false → (∀ n, s ≠ .name n) →
      (writeStep false s).head? = some c → steps = s :: ss →
      ((∀ c ∈ (writeSteps false steps).head?, Text.isBlank c = false) ↔ ¬BeginsBlank ⟨steps⟩) := by
    rintro c s ss hc hname hhead rfl
    refine iff_of_true (fun d hd ↦ ?_) ?_
    · rw [writeSteps, List.head?_append, hhead] at hd
      obtain rfl : c = d := by simpa using hd
      exact hc
    · rintro ⟨n, rest, _, _, he, _⟩
      exact hname n (List.cons.inj he).1
  cases steps with
  | nil => simp [writeSteps, BeginsBlank]
  | cons s ss => cases s with
    | name n =>
      have hvalid : (Step.name n).Valid := by
        rcases h with hcur | hreg
        · simp at hcur
        · exact hreg.valid _ (by simp)
      obtain ⟨c, w, hn⟩ := List.exists_cons_of_ne_nil hvalid.1
      simp [BeginsBlank, writeSteps, writeStep, hn]
    | variableName n => exact hother (c := '$') rfl (by simp) rfl rfl
    | index n => exact hother (c := '[') rfl (by simp) rfl rfl
    | parent => exact hother (c := '<') rfl (by simp) rfl rfl
    | root => exact hother (c := '^') rfl (by simp) rfl rfl
    | current => exact hother (c := '.') rfl (by simp) rfl rfl

theorem parse_display_of_last {p : Path} (h : p.steps = [.current] ∨ Regular p.steps)
    (hlast : ∀ s ∈ p.steps.getLast?, ∀ b, Text.EndsInk (writeStep b s)) :
    parse p.display = .ok p ↔ ¬p.BeginsBlank := by
  rw [← head_display h]
  rcases h with hcur | hreg
  · obtain ⟨steps⟩ := p
    obtain rfl : steps = [.current] := hcur
    refine iff_of_true rfl fun c hc ↦ ?_
    obtain rfl : '.' = c := by simpa [display, writeSteps, writeStep] using hc
    rfl
  · rw [parse_display_iff hreg, Text.trim_eq_self_iff, and_iff_left (endsInk_display hlast)]

theorem parseVariable_last {text : String} {p : Path} {s : Step} (h : parseVariable text = .ok p)
    (hs : p.steps.getLast? = some s) (b : Bool) : Text.EndsInk (writeStep b s) := by
  simp only [parseVariable] at h
  split at h
  · exact parse_last h hs b
  · cases hp : parse (String.ofList (Text.trim text.toList)) with
    | error e => rw [hp] at h; simp [bind, Except.bind] at h
    | ok q =>
      rw [hp] at h
      simp only [bind, Except.bind] at h
      split at h
      · next n rest hsteps =>
        obtain rfl := Except.ok.inj h
        cases rest with
        | nil =>
          obtain rfl : Step.variableName n = s := by simpa using hs
          exact (parse_last (s := .name n) hp (by rw [hsteps]; rfl) false).append ['$']
        | cons t ts =>
          refine parse_last hp ?_ b
          rw [hsteps, List.getLast?_cons_cons]
          simpa using hs
      · simp at h

/-- A path that was read is read back from its text, unless it begins with a name that begins with a
blank. A path that starts with a variable always is. -/
theorem parse_display_parse (text : String) (p : Path) :
    (parse text = .ok p → (parse p.display = .ok p ↔ ¬p.BeginsBlank)) ∧
      (parseVariable text = .ok p → parse p.display = .ok p) := by
  refine ⟨fun h ↦ parse_display_of_last (Written.steps ⟨text, .inl h⟩) fun s hs b ↦ parse_last h hs b,
    fun h ↦ ?_⟩
  have hsteps := Written.steps ⟨text, .inr h⟩
  refine (parse_display_of_last hsteps fun s hs b ↦ parseVariable_last h hs b).2 ?_
  rintro ⟨n, rest, _, _, hname, _⟩
  -- only the first step may be a variable, and there is one
  have hvar := parseVariable_hasVariable h
  rcases hsteps with hcur | hreg
  · rw [hcur] at hname
    simp at hname
  · have hinside := hreg.inside
    rw [hname] at hinside
    have hplain : isVariable (.name n) = false := rfl
    rw [hasVariable, hname, List.any_cons, hplain, Bool.false_or, List.any_eq_true] at hvar
    obtain ⟨t, ht, hvt⟩ := hvar
    rw [hinside t ht] at hvt
    simp at hvt

theorem parse_display_parse_rows :
    parse (Path.mk [.name "rows", .index 2, .parent, .name "x"]).display =
        .ok ⟨[.name "rows", .index 2, .parent, .name "x"]⟩ ∧
      parse (Path.mk [.variableName "row", .name "x"]).display = .ok ⟨[.variableName "row", .name "x"]⟩ := by
  refine ⟨((parse_display_parse ".rows[2] < x" ⟨[.name "rows", .index 2, .parent, .name "x"]⟩).1 rfl).2 ?_,
    (parse_display_parse " row.x" ⟨[.variableName "row", .name "x"]⟩).2 rfl⟩
  rintro ⟨n, rest, c, s, hsteps, hn, hc⟩
  obtain rfl : "rows" = n := Step.name.inj (List.cons.inj hsteps).1
  obtain rfl : 'r' = c := (List.cons.inj hn).1
  exact Bool.false_ne_true hc

example : parse (Path.mk [.name "\u00a0a"]).display = .ok ⟨[.name "a"]⟩ := rfl

end Path

end Stencil
