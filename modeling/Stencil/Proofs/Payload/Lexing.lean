import Stencil.Payload.Reader
import Stencil.Proofs.Attempt
import Stencil.Proofs.Json.StringText
/-!
Lexing without its bound. A spelling of tokens is a text that lexes to them in front of the rest it
was made for, wherever it stands. Every text that lexes spells its tokens, and each token looks its
part: words and numbers have no quotes and no brackets in them, strings end where they are closed.
-/

namespace Stencil.Payload

theorem lexemesFrom_enough {n m : ℕ} (i : ℕ) {s : List Char} (hn : s.length ≤ n) (hm : s.length ≤ m) :
    lexemesFrom n i s = lexemesFrom m i s := by
  induction n generalizing m i s with
  | zero =>
    obtain rfl := List.length_eq_zero_iff.1 (Nat.le_zero.1 hn)
    cases m <;> rfl
  | succ n ih =>
    cases s with
    | nil => cases m <;> rfl
    | cons c s =>
      simp only [List.length_cons] at hn hm
      obtain ⟨m, rfl⟩ : ∃ k, m = k + 1 := ⟨m - 1, by omega⟩
      rw [lexemesFrom, lexemesFrom]
      split
      · exact ih _ (by omega) (by omega)
      · have hdrop : (s.drop (scan c s).2.length).length ≤ s.length := by simp
        simp only
        rw [ih (m := m) _ (by omega) (by omega)]

def lexed (i : ℕ) (s : List Char) : Except Error (List Lexed) := tokensOf (lexemesFrom s.length i s)

theorem lexed_nil (i : ℕ) : lexed i [] = .ok [] := rfl

theorem lexed_gap {c : Char} (h : isGap c = true) (i : ℕ) (s : List Char) :
    lexed i (c :: s) = lexed (i + c.utf8Size) s := by
  rw [lexed, List.length_cons, lexemesFrom, if_pos h, lexed]

def Begins (t : Token) (w r : List Char) : Prop :=
  ∃ c w', w = c :: w' ∧ isGap c = false ∧ scan c (w' ++ r) = (some t, w')

theorem lexed_token {t : Token} {w r : List Char} (h : Begins t w r) (i : ℕ) :
    lexed i (w ++ r) = (lexed (i + Text.width w) r).map (⟨t, w, i⟩ :: ·) := by
  obtain ⟨c, w', rfl, hgap, hscan⟩ := h
  have hlen : r.length ≤ (w' ++ r).length := by simp
  rw [lexed, List.cons_append, List.length_cons, lexemesFrom, if_neg (by simp [hgap]), hscan]
  simp only [tokensOf, List.drop_left]
  rw [lexemesFrom_enough _ hlen le_rfl, lexed]

/-- Text that lexes to tokens in front of a rest. -/
inductive Spelling (r : List Char) : List Token → List Char → Prop where
  | nil : Spelling r [] []
  | gap {c ts s} : isGap c = true → Spelling r ts s → Spelling r ts (c :: s)
  | token {t ts w s} : Begins t w (s ++ r) → Spelling r ts s → Spelling r (t :: ts) (w ++ s)

namespace Spelling

variable {r s s' : List Char} {ts ts' : List Token}

theorem one {t : Token} (h : Begins t s r) : Spelling r [t] s := by
  simpa using token (s := []) (by simpa using h) (nil (r := r))

theorem append (h : Spelling (s' ++ r) ts s) (h' : Spelling r ts' s') :
    Spelling r (ts ++ ts') (s ++ s') := by
  induction h with
  | nil => exact h'
  | gap hc _ ih => exact gap hc ih
  | token hb _ ih =>
    rw [List.append_assoc]
    exact token (by rwa [List.append_assoc]) ih

theorem lexed (h : Spelling r ts s) (i : ℕ) : ∃ ls : List Lexed, ls.map Lexed.token = ts ∧
    Payload.lexed i (s ++ r) = (Payload.lexed (i + Text.width s) r).map (ls ++ ·) := by
  induction h generalizing i with
  | nil => exact ⟨[], rfl, by cases h : Payload.lexed i r <;> simp [h, Except.map]⟩
  | @gap c ts s hc _ ih =>
    obtain ⟨ls, hts, hlex⟩ := ih (i + c.utf8Size)
    refine ⟨ls, hts, ?_⟩
    rw [List.cons_append, lexed_gap hc, hlex, Text.width_cons, Nat.add_assoc]
  | @token t ts w s hb _ ih =>
    obtain ⟨ls, hts, hlex⟩ := ih (i + Text.width w)
    refine ⟨⟨t, w, i⟩ :: ls, by simp [hts], ?_⟩
    rw [List.append_assoc, lexed_token hb, hlex, Text.width_append, Nat.add_assoc]
    cases Payload.lexed (i + (Text.width w + Text.width s)) r <;> rfl

theorem lexed_whole (h : Spelling [] ts s) (i : ℕ) :
    ∃ ls : List Lexed, ls.map Lexed.token = ts ∧ Payload.lexed i s = .ok ls := by
  obtain ⟨ls, hts, hlex⟩ := h.lexed i
  refine ⟨ls, hts, ?_⟩
  rw [List.append_nil, lexed_nil] at hlex
  simpa [Except.map] using hlex

end Spelling

section Punctuation

variable (r : List Char)

theorem begins_openBrace : Begins .openBrace ['\x7b'] r := ⟨_, [], rfl, rfl, rfl⟩

theorem begins_closeBrace : Begins .closeBrace ['\x7d'] r := ⟨_, [], rfl, rfl, rfl⟩

theorem begins_openBracket : Begins .openBracket ['['] r := ⟨_, [], rfl, rfl, rfl⟩

theorem begins_closeBracket : Begins .closeBracket [']'] r := ⟨_, [], rfl, rfl, rfl⟩

theorem begins_comma : Begins .comma [','] r := ⟨_, [], rfl, rfl, rfl⟩

theorem begins_colon : Begins .colon [':'] r := ⟨_, [], rfl, rfl, rfl⟩

end Punctuation

/-- A text that does not go on with the word or the number before it. -/
def Apart (r : List Char) : Prop := ∀ c ∈ r.head?, isWordRest c = false ∧ c ≠ '.'

theorem apart_nil : Apart [] := by simp [Apart]

theorem apart_cons {c : Char} (h : isWordRest c = false ∧ c ≠ '.') (r : List Char) : Apart (c :: r) := by
  simpa [Apart] using h

theorem takeWhile_append_apart {p : Char → Bool} (hp : ∀ c, p c = true → isWordRest c = true)
    {w r : List Char} (hw : ∀ c ∈ w, p c = true) (hr : Apart r) : (w ++ r).takeWhile p = w := by
  rw [List.takeWhile_append_of_pos hw]
  cases r with
  | nil => simp
  | cons c r =>
    have hc : p c = false := by
      have := (hr c rfl).1
      cases hp' : p c with
      | false => rfl
      | true => rw [hp c hp'] at this; contradiction
    simp [hc]

/-- A word: a letter or an underscore, and what may follow it. -/
def IsWord (w : List Char) : Prop := ∃ c w', w = c :: w' ∧ isWordStart c = true ∧ ∀ d ∈ w', isWordRest d = true

theorem isGap_of_isWordStart {c : Char} (h : isWordStart c = true) : isGap c = false := by
  simp only [isGap, Bool.or_eq_false_iff, beq_eq_false_iff_ne]
  refine ⟨⟨⟨?_, ?_⟩, ?_⟩, ?_⟩ <;> rintro rfl <;> revert h <;> decide

theorem begins_word {w r : List Char} (hw : IsWord w) (hr : Apart r) : Begins (wordToken w) w r := by
  obtain ⟨c, w', rfl, hc, hw'⟩ := hw
  refine ⟨c, w', rfl, isGap_of_isWordStart hc, ?_⟩
  unfold scan
  rw [if_pos hc, takeWhile_append_apart (fun _ h ↦ h) hw' hr]

theorem begins_marked {m : Char} {w r : List Char} (hm : isMark m = true) (hw : IsWord w) (hr : Apart r) :
    Begins (.ident (m :: w)) (m :: w) r := by
  obtain ⟨c, w', rfl, hc, hw'⟩ := hw
  have hm' : m = '$' ∨ m = '@' := by simpa [isMark] using hm
  refine ⟨m, c :: w', rfl, by rcases hm' with rfl | rfl <;> rfl, ?_⟩
  have hstart : isWordStart m = false := by rcases hm' with rfl | rfl <;> rfl
  unfold scan
  rw [if_neg (by simp [hstart]), if_pos hm]
  simp only [List.cons_append, hc, if_true]
  rw [takeWhile_append_apart (fun _ h ↦ h) hw' hr]

/-! ### What lexed text looks like -/

def IsInk (c : Char) : Prop := isWordRest c = true ∨ isMark c = true ∨ c = '.' ∨ c = '+'

theorem isInk_of_isWordStart {c : Char} (h : isWordStart c = true) : IsInk c := by
  left
  simp only [isWordStart, isWordRest, Bool.or_eq_true] at h ⊢
  tauto

theorem isInk_of_isDigit {c : Char} (h : c.isDigit = true) : IsInk c := by
  left
  simp [isWordRest, h]

def IsString (quote : Char) (w : List Char) : Prop := ∃ b, w = quote :: (b ++ [quote]) ∧ Json.Escaped quote b

def Token.Looks (w : List Char) : Token → Prop
  | .double raw => raw = w ∧ IsString '"' w
  | .single raw => raw = w ∧ IsString '\'' w
  | .openBrace => w = ['\x7b']
  | .closeBrace => w = ['\x7d']
  | .openBracket => w = ['[']
  | .closeBracket => w = [']']
  | .comma => w = [',']
  | .colon => w = [':']
  | _ => ∀ c ∈ w, IsInk c

theorem stringBody_escaped {q : Char} (hq : q ≠ '\\') {b : List Char} (h : Json.Escaped q b) (r : List Char) :
    stringBody q (b ++ q :: r) = (b, q :: r, true) := by
  induction h with
  | nil => rw [List.nil_append, stringBody.eq_def]; simp only [if_true]
  | plain h₁ h₂ _ ih => rw [List.cons_append, stringBody.eq_def]; simp only [if_neg h₁, if_neg h₂, ih]
  | @pair c s hc _ ih =>
    rw [List.cons_append, List.cons_append, stringBody.eq_def]
    simp only [if_neg hq.symm, if_pos, if_neg hc, ih]

theorem escaped_of_stringBody {q : Char} {s b r : List Char} (h : stringBody q s = (b, r, true)) :
    Json.Escaped q b ∧ ∃ r', s = b ++ q :: r' := by
  fun_induction stringBody q s generalizing b r with
  | case1 => simp at h
  | case2 s =>
    obtain ⟨rfl, -⟩ := Prod.mk.inj h
    exact ⟨.nil, s, rfl⟩
  | case3 => simp at h
  | case4 => simp at h
  | case5 d s hline body rest closed hbody _ ih =>
    simp only [Prod.mk.injEq] at h
    obtain ⟨rfl, rfl, rfl⟩ := h
    obtain ⟨hesc, r', rfl⟩ := ih hbody
    exact ⟨.pair hline hesc, r', rfl⟩
  | case6 c s hquote hback body rest closed hbody ih =>
    simp only [Prod.mk.injEq] at h
    obtain ⟨rfl, rfl, rfl⟩ := h
    obtain ⟨hesc, r', rfl⟩ := ih hbody
    exact ⟨.plain hquote hback hesc, r', rfl⟩

theorem isInk_of_mem_takeWhile {p : Char → Bool} (hp : ∀ c, p c = true → IsInk c) (s : List Char) :
    ∀ c ∈ s.takeWhile p, IsInk c := fun c hc ↦ hp c (List.all_eq_true.1 List.all_takeWhile c hc)

theorem fractionPart_looks (s : List Char) : fractionPart s <+: s ∧ ∀ c ∈ fractionPart s, IsInk c := by
  rw [fractionPart.eq_def]
  split
  · next r =>
    have hink := isInk_of_mem_takeWhile (fun _ ↦ isInk_of_isDigit) r
    split
    · simp
    · refine ⟨(List.prefix_cons_inj _).2 (List.takeWhile_prefix _), ?_⟩
      intro c hc
      rcases List.mem_cons.1 hc with rfl | hc
      · exact .inr (.inr (.inl rfl))
      · exact hink c hc
  · simp

theorem exponentPart_cons (e : Char) (s : List Char) : exponentPart (e :: s) = [] ∨ ∃ sign r, s = sign ++ r ∧
    (∀ c ∈ sign, IsInk c) ∧ IsInk e ∧ exponentPart (e :: s) = e :: sign ++ r.takeWhile Char.isDigit := by
  by_cases he : e = 'e' ∨ e = 'E'
  · have hink : IsInk e := by rcases he with rfl | rfl <;> exact .inl rfl
    rw [exponentPart.eq_def]
    dsimp only
    rw [if_pos he]
    split
    · exact .inl rfl
    right
    split
    · exact ⟨['+'], _, rfl, by simp [IsInk], hink, rfl⟩
    · exact ⟨['-'], _, rfl, by simp [IsInk, isWordRest], hink, rfl⟩
    · exact ⟨[], _, rfl, by simp, hink, rfl⟩
  · left
    rw [exponentPart.eq_def]
    exact if_neg he

theorem exponentPart_looks (s : List Char) : exponentPart s <+: s ∧ ∀ c ∈ exponentPart s, IsInk c := by
  cases s with
  | nil => simp [exponentPart]
  | cons e s =>
    rcases exponentPart_cons e s with heq | ⟨sign, r, rfl, hsign, he, heq⟩
    · simp [heq]
    have hink := isInk_of_mem_takeWhile (fun _ ↦ isInk_of_isDigit) r
    rw [heq]
    refine ⟨(List.prefix_cons_inj _).2 ((List.prefix_append_right_inj _).2 (List.takeWhile_prefix _)), ?_⟩
    intro c hc
    rcases List.mem_append.1 hc with hc | hc
    · rcases List.mem_cons.1 hc with rfl | hc
      · exact he
      · exact hsign c hc
    · exact hink c hc

theorem numberPart_looks (s : List Char) : numberPart s <+: s ∧ ∀ c ∈ numberPart s, IsInk c := by
  have hink := isInk_of_mem_takeWhile (fun _ ↦ isInk_of_isDigit) s
  obtain ⟨hfraction, hfink⟩ := fractionPart_looks (s.dropWhile Char.isDigit)
  obtain ⟨r, hr⟩ := hfraction
  obtain ⟨hexponent, heink⟩ := exponentPart_looks r
  have hdrop : (s.dropWhile Char.isDigit).drop (fractionPart (s.dropWhile Char.isDigit)).length = r := by
    nth_rewrite 2 [← hr]
    exact List.drop_left
  rw [numberPart]
  split
  · simp
  · next ds hne =>
    dsimp only
    rw [hdrop]
    constructor
    · conv_rhs => rw [← List.takeWhile_append_dropWhile (p := Char.isDigit) (l := s), ← hr]
      rw [List.append_assoc]
      exact (List.prefix_append_right_inj _).2 ((List.prefix_append_right_inj _).2 hexponent)
    · intro c hc
      simp only [List.mem_append] at hc
      rcases hc with (hc | hc) | hc
      · exact hink c hc
      · exact hfink c hc
      · exact heink c hc

theorem looks_wordToken {w : List Char} (h : ∀ c ∈ w, IsInk c) : (wordToken w).Looks w := by
  rw [wordToken]
  split_ifs <;> exact h

def signs : List (Char × Token) :=
  [('\x7b', .openBrace), ('\x7d', .closeBrace), ('[', .openBracket), (']', .closeBracket), (',', .comma), (':', .colon)]

/-- Everything a scan can give. -/
inductive Scanned (c : Char) (s : List Char) : Token → List Char → Prop where
  | word : isWordStart c = true → Scanned c s (wordToken (c :: s.takeWhile isWordRest)) (s.takeWhile isWordRest)
  | marked {d r} : isMark c = true → s = d :: r → isWordStart d = true →
      Scanned c s (.ident (c :: d :: r.takeWhile isWordRest)) (d :: r.takeWhile isWordRest)
  | double {b r} : c = '"' → stringBody c s = (b, r, true) → Scanned c s (.double (c :: (b ++ [c]))) (b ++ [c])
  | single {b r} : c = '\'' → stringBody c s = (b, r, true) → Scanned c s (.single (c :: (b ++ [c]))) (b ++ [c])
  | digits : c.isDigit = true →
      Scanned c s (.number (c :: (numberPart (c :: s)).drop 1)) ((numberPart (c :: s)).drop 1)
  | negative : c = '-' → Scanned c s (.number (c :: numberPart s)) (numberPart s)
  | punctuation {t} : (c, t) ∈ signs → Scanned c s t []

theorem scan_cases {c : Char} {s w : List Char} {t : Token} (h : scan c s = (some t, w)) : Scanned c s t w := by
  unfold scan at h
  by_cases hword : isWordStart c = true
  · rw [if_pos hword] at h
    obtain ⟨rfl, rfl⟩ := by simpa only [Prod.mk.injEq, Option.some.injEq] using h
    exact .word hword
  rw [if_neg hword] at h
  by_cases hmark : isMark c = true
  · rw [if_pos hmark] at h
    cases s with
    | nil => simp at h
    | cons d r =>
      by_cases hstart : isWordStart d = true
      · simp only [if_pos hstart, Prod.mk.injEq, Option.some.injEq] at h
        obtain ⟨rfl, rfl⟩ := h
        exact .marked hmark rfl hstart
      · simp [hstart] at h
  rw [if_neg hmark] at h
  by_cases hquote : c = '"' ∨ c = '\''
  · rw [if_pos hquote] at h
    rcases hbody : stringBody c s with ⟨b, r, _ | _⟩
    · simp [hbody] at h
    · simp only [hbody, if_true, Prod.mk.injEq, Option.some.injEq] at h
      obtain ⟨rfl, rfl⟩ := h
      by_cases hdouble : c = '"'
      · rw [if_pos hdouble]
        exact .double hdouble hbody
      · rw [if_neg hdouble]
        exact .single (hquote.resolve_left hdouble) hbody
  rw [if_neg hquote] at h
  by_cases hdigit : c.isDigit = true
  · rw [if_pos hdigit] at h
    obtain ⟨rfl, rfl⟩ := by simpa only [Prod.mk.injEq, Option.some.injEq] using h
    exact .digits hdigit
  rw [if_neg hdigit] at h
  by_cases hminus : c = '-'
  · rw [if_pos hminus] at h
    split at h
    · simp at h
    · obtain ⟨rfl, rfl⟩ := by simpa only [Prod.mk.injEq, Option.some.injEq] using h
      exact .negative hminus
  rw [if_neg hminus] at h
  have hone : ∀ {d : Char} {u : Token}, c = d → (d, u) ∈ signs →
      ((some u, []) : Option Token × List Char) = (some t, w) → Scanned c s t w := by
    intro d u hd hmem he
    obtain ⟨rfl, rfl⟩ := by simpa only [Prod.mk.injEq, Option.some.injEq] using he
    exact .punctuation (hd ▸ hmem)
  split_ifs at h with h₁ h₂ h₃ h₄ h₅ h₆
  · exact hone h₁ (by simp [signs]) h
  · exact hone h₂ (by simp [signs]) h
  · exact hone h₃ (by simp [signs]) h
  · exact hone h₄ (by simp [signs]) h
  · exact hone h₅ (by simp [signs]) h
  · exact hone h₆ (by simp [signs]) h
  · simp at h

/-- A token takes the front of the text that was scanned, and looks its part. -/
theorem scan_looks {c : Char} {s w : List Char} {t : Token} (h : scan c s = (some t, w)) :
    w <+: s ∧ t.Looks (c :: w) := by
  have hword : ∀ (d : Char) (r : List Char), IsInk d → ∀ x ∈ d :: r.takeWhile isWordRest, IsInk x := by
    intro d r hd x hx
    rcases List.mem_cons.1 hx with rfl | hx
    · exact hd
    · exact isInk_of_mem_takeWhile (fun _ ↦ .inl) r x hx
  cases scan_cases h with
  | word hstart =>
    exact ⟨List.takeWhile_prefix _, looks_wordToken (hword c s (isInk_of_isWordStart hstart))⟩
  | @marked d r hmark hs hstart =>
    subst hs
    refine ⟨(List.prefix_cons_inj _).2 (List.takeWhile_prefix _), ?_⟩
    intro x hx
    rcases List.mem_cons.1 hx with rfl | hx
    · exact .inr (.inl hmark)
    · exact hword d r (isInk_of_isWordStart hstart) x hx
  | double hquote hbody =>
    obtain ⟨hesc, r, rfl⟩ := escaped_of_stringBody hbody
    subst hquote
    exact ⟨⟨r, by simp⟩, rfl, _, rfl, hesc⟩
  | single hquote hbody =>
    obtain ⟨hesc, r, rfl⟩ := escaped_of_stringBody hbody
    subst hquote
    exact ⟨⟨r, by simp⟩, rfl, _, rfl, hesc⟩
  | digits hdigit =>
    obtain ⟨hfront, hink⟩ := numberPart_looks (c :: s)
    refine ⟨by simpa using hfront.drop 1, ?_⟩
    intro x hx
    rcases List.mem_cons.1 hx with rfl | hx
    · exact isInk_of_isDigit hdigit
    · exact hink x (List.mem_of_mem_drop hx)
  | negative hminus =>
    obtain ⟨hfront, hink⟩ := numberPart_looks s
    refine ⟨hfront, ?_⟩
    intro x hx
    rcases List.mem_cons.1 hx with rfl | hx
    · rw [hminus]
      exact .inl rfl
    · exact hink x hx
  | punctuation hmem =>
    refine ⟨List.nil_prefix, ?_⟩
    simp only [signs, List.mem_cons, Prod.mk.injEq, List.not_mem_nil, or_false] at hmem
    rcases hmem with ⟨rfl, rfl⟩ | ⟨rfl, rfl⟩ | ⟨rfl, rfl⟩ | ⟨rfl, rfl⟩ | ⟨rfl, rfl⟩ | ⟨rfl, rfl⟩ <;> rfl

theorem looks_of_begins {t : Token} {w r : List Char} (h : Begins t w r) : t.Looks w := by
  obtain ⟨c, w', rfl, -, hscan⟩ := h
  exact (scan_looks hscan).2

theorem spelling_of_lexed {i : ℕ} {s : List Char} {ls : List Lexed} (h : lexed i s = .ok ls) :
    Spelling [] (ls.map Lexed.token) s := by
  induction hn : s.length using Nat.strong_induction_on generalizing i s ls with
  | _ n ih =>
    subst hn
    cases s with
    | nil =>
      obtain rfl := Except.ok.inj h
      exact .nil
    | cons c s =>
      by_cases hgap : isGap c = true
      · rw [lexed_gap hgap] at h
        exact .gap hgap (ih s.length (by simp) h rfl)
      · rcases hscan : scan c s with ⟨_ | t, w⟩
        · rw [lexed, List.length_cons, lexemesFrom, if_neg hgap, hscan] at h
          simp [tokensOf] at h
        · obtain ⟨⟨r, rfl⟩, -⟩ := scan_looks hscan
          have hbegins : Begins t (c :: w) r := ⟨c, w, rfl, by simpa using hgap, hscan⟩
          rw [← List.cons_append, lexed_token hbegins] at h
          obtain ⟨ls', hlexed, rfl⟩ := except_map_eq_ok.1 h
          have hrest := ih r.length (by simp) hlexed rfl
          exact .token (by simpa using hbegins) hrest

namespace Spelling

variable {r s : List Char} {ts ts' : List Token}

theorem looks (h : Spelling r ts s) : ∀ t ∈ ts, ∃ w, t.Looks w := by
  induction h with
  | nil => simp
  | gap _ _ ih => exact ih
  | token hb _ ih =>
    intro t ht
    rcases List.mem_cons.1 ht with rfl | ht
    · exact ⟨_, looks_of_begins hb⟩
    · exact ih t ht

theorem split (h : Spelling r (ts ++ ts') s) :
    ∃ s₁ s₂, s = s₁ ++ s₂ ∧ Spelling (s₂ ++ r) ts s₁ ∧ Spelling r ts' s₂ := by
  generalize hus : ts ++ ts' = us at h
  induction h generalizing ts with
  | nil =>
    obtain ⟨rfl, rfl⟩ := List.append_eq_nil_iff.1 hus
    exact ⟨[], [], rfl, .nil, .nil⟩
  | @gap c us s hc hs ih =>
    obtain ⟨s₁, s₂, rfl, h₁, h₂⟩ := ih hus
    exact ⟨c :: s₁, s₂, rfl, .gap hc h₁, h₂⟩
  | @token t us w s hb hs ih =>
    cases ts with
    | nil =>
      rw [List.nil_append] at hus
      exact ⟨[], w ++ s, rfl, .nil, hus ▸ .token hb hs⟩
    | cons u ts =>
      obtain ⟨rfl, hrest⟩ := List.cons.inj hus
      obtain ⟨s₁, s₂, rfl, h₁, h₂⟩ := ih hrest
      refine ⟨w ++ s₁, s₂, by simp, .token (by simpa using hb) h₁, h₂⟩

theorem gaps (h : Spelling r [] s) : ∀ c ∈ s, isGap c = true := by
  generalize hts : ([] : List Token) = ts at h
  induction h with
  | nil => simp
  | gap hc _ ih => simpa using ⟨hc, ih hts⟩
  | token => contradiction

theorem single {t : Token} (h : Spelling r [t] s) : ∃ g w g', s = g ++ (w ++ g') ∧
    (∀ c ∈ g, isGap c = true) ∧ t.Looks w ∧ ∀ c ∈ g', isGap c = true := by
  generalize hts : [t] = ts at h
  induction h with
  | nil => contradiction
  | @gap c ts s hc _ ih =>
    obtain ⟨g, w, g', rfl, hg, hw, hg'⟩ := ih hts
    exact ⟨c :: g, w, g', rfl, by simpa using ⟨hc, hg⟩, hw, hg'⟩
  | @token u ts w s hb hs _ =>
    obtain ⟨rfl, rfl⟩ := List.cons.inj hts
    exact ⟨[], w, s, rfl, by simp, looks_of_begins hb, hs.gaps⟩

end Spelling

end Stencil.Payload
