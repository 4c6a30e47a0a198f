import Stencil.Proofs.Payload.Balance
import Stencil.Proofs.Payload.Joining
/-!
Where the errors of reading stand. Every span that is reported covers a piece of the text that was read, on
character boundaries: a token, a character that begins none, a whole short form, or nothing at the place where the
tokens end. A token that is reported is spelled as it stands there.
-/

namespace Stencil

namespace Payload

/-- A span that covers a piece of a text. -/
def Span.Covers (σ : Span) (s w : List Char) : Prop :=
  ∃ a b, s = a ++ w ++ b ∧ σ = ⟨Text.width a, Text.width (a ++ w)⟩

/-- An error whose span covers a piece of a text, the token that it names if it names one. -/
def Error.Located (e : Error) (s : List Char) : Prop :=
  match e with
  | unexpectedToken σ _ found => σ.Covers s found.toList
  | unexpectedEnd n _ => Span.Covers ⟨n, n⟩ s []
  | invalid σ _ => ∃ w, σ.Covers s w
  | unknownCharacter σ => ∃ w, σ.Covers s w

variable {σ : Span} {s w : List Char} {e : Error}

theorem Span.covers_middle (a w b : List Char) : Span.Covers ⟨Text.width a, Text.width a + Text.width w⟩ (a ++ w ++ b) w :=
  ⟨a, b, rfl, by rw [Text.width_append]⟩

theorem Span.covers_whole (s : List Char) : Span.Covers ⟨0, Text.width s⟩ s s := ⟨[], [], by simp, by simp⟩

/-- Nothing is covered right behind what is covered. -/
theorem Span.Covers.behind (h : σ.Covers s w) : Span.Covers ⟨σ.stop, σ.stop⟩ s [] := by
  obtain ⟨a, b, rfl, rfl⟩ := h
  exact ⟨a ++ w, b, by simp, by simp⟩

theorem Span.Covers.shift (h : σ.Covers s w) (p r : List Char) : (σ.shift (Text.width p)).Covers (p ++ s ++ r) w := by
  obtain ⟨a, b, rfl, rfl⟩ := h
  refine ⟨p ++ a, b ++ r, by simp, ?_⟩
  rw [Span.shift, List.append_assoc, Text.width_append p, Text.width_append p]
  simp only [Span.mk.injEq]
  omega

theorem Error.Located.shift (h : e.Located s) (p r : List Char) : (e.shift (Text.width p)).Located (p ++ s ++ r) := by
  cases e with
  | unexpectedToken => exact Span.Covers.shift h p r
  | unexpectedEnd => exact Span.Covers.shift h p r
  | invalid =>
    obtain ⟨w, hw⟩ := h
    exact ⟨w, hw.shift p r⟩
  | unknownCharacter =>
    obtain ⟨w, hw⟩ := h
    exact ⟨w, hw.shift p r⟩

theorem Error.Located.covers (h : e.Located s) : ∃ w, e.span.Covers s w ∧
    ∀ σ expected found, e = .unexpectedToken σ expected found → found = String.ofList w := by
  cases e with
  | unexpectedToken σ expected found =>
    refine ⟨_, h, fun σ' expected' found' heq ↦ ?_⟩
    obtain ⟨-, -, rfl⟩ := Error.unexpectedToken.inj heq
    rw [String.ofList_toList]
  | unexpectedEnd => exact ⟨[], h, by simp⟩
  | invalid =>
    obtain ⟨w, hw⟩ := h
    exact ⟨w, hw, by simp⟩
  | unknownCharacter =>
    obtain ⟨w, hw⟩ := h
    exact ⟨w, hw, by simp⟩

/-! ### Lexemes -/

theorem stringBody_prefix (quote : Char) (s : List Char) : (stringBody quote s).1 <+: s := by
  fun_induction stringBody quote s with
  | case1 => exact List.nil_prefix
  | case2 => exact List.nil_prefix
  | case3 => exact List.nil_prefix
  | case4 => exact List.nil_prefix
  | case5 d s hline body rest closed hbody _ ih =>
    rw [hbody] at ih
    exact (List.prefix_cons_inj _).2 ((List.prefix_cons_inj _).2 ih)
  | case6 c s hquote hback body rest closed hbody ih =>
    rw [hbody] at ih
    exact (List.prefix_cons_inj _).2 ih

/-- What begins no token is a single character, or a string that is not closed. -/
theorem scan_none {c : Char} (h : scan c s = (none, w)) : w = [] ∨ w = (stringBody c s).1 := by
  have hempty : ((none, []) : Option Token × List Char) = (none, w) → w = [] := fun heq ↦ (Prod.mk.inj heq).2.symm
  unfold scan at h
  by_cases hword : isWordStart c = true
  · simp [hword] at h
  rw [if_neg hword] at h
  by_cases hmark : isMark c = true
  · rw [if_pos hmark] at h
    cases s with
    | nil => exact .inl (hempty h)
    | cons d r =>
      by_cases hstart : isWordStart d = true
      · simp [hstart] at h
      · dsimp only at h
        rw [if_neg hstart] at h
        exact .inl (hempty h)
  rw [if_neg hmark] at h
  by_cases hquote : c = '"' ∨ c = '\''
  · rw [if_pos hquote] at h
    rcases hbody : stringBody c s with ⟨b, r, _ | _⟩
    · rw [hbody] at h
      exact .inr (Prod.mk.inj h).2.symm
    · simp [hbody] at h
  rw [if_neg hquote] at h
  by_cases hdigit : c.isDigit = true
  · simp [hdigit] at h
  rw [if_neg hdigit] at h
  by_cases hminus : c = '-'
  · rw [if_pos hminus] at h
    split at h
    · exact .inl (hempty h)
    · simp at h
  rw [if_neg hminus] at h
  -- the six tokens of a single character, and what is left
  split_ifs at h <;> first | exact .inl (hempty h) | simp at h

theorem scan_prefix (c : Char) (s : List Char) : (scan c s).2 <+: s := by
  rcases hscan : scan c s with ⟨_ | t, w⟩
  · rcases scan_none hscan with rfl | rfl
    · exact List.nil_prefix
    · exact stringBody_prefix c s
  · exact (scan_looks hscan).1

theorem covers_lexemesFrom (n : ℕ) (a s : List Char) : ∀ l ∈ lexemesFrom n (Text.width a) s, l.span.Covers (a ++ s) l.text := by
  induction n generalizing a s with
  | zero => simp [lexemesFrom]
  | succ n ih =>
    cases s with
    | nil => simp [lexemesFrom]
    | cons c s =>
      rw [lexemesFrom]
      split
      · have hrest := ih (a ++ [c]) s
        rwa [List.append_assoc, Text.width_append] at hrest
      · obtain ⟨r, hr⟩ := scan_prefix c s
        have hdrop : s.drop (scan c s).2.length = r := by
          nth_rewrite 2 [← hr]
          exact List.drop_left
        have hsplit : a ++ c :: s = a ++ (c :: (scan c s).2) ++ r := by
          nth_rewrite 1 [← hr]
          simp
        have hrest := ih (a ++ c :: (scan c s).2) r
        rw [Text.width_append] at hrest
        dsimp only
        rw [hdrop, hsplit]
        exact List.forall_mem_cons.2 ⟨Span.covers_middle a (c :: (scan c s).2) r, hrest⟩

theorem covers_lexemes (s : List Char) : ∀ l ∈ lexemes s, l.span.Covers s l.text := covers_lexemesFrom s.length [] s

/-! ### Tokens -/

/-- Tokens that stand in a text as they are spelled. -/
def Placed (s : List Char) (ls : List Lexed) : Prop := ∀ l ∈ ls, l.span.Covers s l.text

theorem Placed.right {us ls : List Lexed} (h : Placed s (us ++ ls)) : Placed s ls :=
  fun l hl ↦ h l (List.mem_append_right _ hl)

theorem Placed.tail {l : Lexed} {ls : List Lexed} (h : Placed s (l :: ls)) : Placed s ls :=
  fun m hm ↦ h m (List.mem_cons_of_mem _ hm)

theorem placed_of_tokensOf {ls : List Lexeme} (hls : ∀ l ∈ ls, l.span.Covers s l.text) {ts : List Lexed}
    (h : tokensOf ls = .ok ts) : Placed s ts := by
  induction ls generalizing ts with
  | nil =>
    obtain rfl := Except.ok.inj h
    simp [Placed]
  | cons l ls ih =>
    obtain ⟨hfirst, hrest⟩ := List.forall_mem_cons.1 hls
    rw [tokensOf] at h
    split at h
    · contradiction
    · obtain ⟨us, hus, rfl⟩ := except_map_eq_ok.1 h
      exact List.forall_mem_cons.2 ⟨hfirst, ih hrest hus⟩

theorem located_of_tokensOf {ls : List Lexeme} (hls : ∀ l ∈ ls, l.span.Covers s l.text)
    (h : tokensOf ls = .error e) : e.Located s := by
  induction ls with
  | nil => contradiction
  | cons l ls ih =>
    obtain ⟨hfirst, hrest⟩ := List.forall_mem_cons.1 hls
    rw [tokensOf] at h
    split at h
    · obtain rfl := Except.error.inj h
      exact ⟨_, hfirst⟩
    · exact ih hrest (except_map_eq_error.1 h)

theorem covers_endOf {ts : List Lexed} (h : Placed s ts) : Span.Covers ⟨endOf ts, endOf ts⟩ s [] := by
  rw [endOf]
  cases hlast : ts.getLast? with
  | none => exact ⟨[], s, rfl, rfl⟩
  | some l => exact (h l (List.mem_of_getLast? hlast)).behind

variable {stop n : ℕ} {ls : List Lexed}

theorem located_unexpected (hstop : Span.Covers ⟨stop, stop⟩ s []) (hls : Placed s ls) (expected : Expected) :
    (unexpected stop expected ls).Located s := by
  cases ls with
  | nil => exact hstop
  | cons l ls =>
    have hfirst := hls l List.mem_cons_self
    rwa [unexpected, Error.Located, String.toList_ofList]

theorem doubleText_error {raw : List Char} (h : doubleText raw σ = .error e) : ∃ reason, e = .invalid σ (.badString reason) := by
  rw [doubleText] at h
  dsimp only at h
  split at h
  · contradiction
  · exact ⟨_, (Except.error.inj h).symm⟩

theorem numberValue_error {raw : List Char} (h : numberValue raw σ = .error e) :
    e = .invalid σ (.badNumber (String.ofList raw)) := by
  rw [numberValue] at h
  dsimp only at h
  split_ifs at h
  all_goals exact (Except.error.inj h).symm

theorem keyText_located (hstop : Span.Covers ⟨stop, stop⟩ s []) (hls : Placed s ls) (h : keyText stop ls = .error e) :
    e.Located s := by
  cases ls with
  | nil =>
    obtain rfl := Except.error.inj h
    exact hstop
  | cons l ls =>
    rw [keyText] at h
    split at h
    case h_2 =>
      obtain ⟨reason, rfl⟩ := doubleText_error (except_map_eq_error.1 h)
      exact ⟨_, hls l List.mem_cons_self⟩
    case h_7 =>
      obtain rfl := Except.error.inj h
      exact located_unexpected hstop hls _
    all_goals contradiction

theorem pastColon_located (hstop : Span.Covers ⟨stop, stop⟩ s []) (hls : Placed s ls) (h : pastColon stop ls = .error e) :
    e.Located s := by
  cases ls with
  | nil =>
    obtain rfl := Except.error.inj h
    exact hstop
  | cons l ls =>
    rw [pastColon] at h
    split at h
    · contradiction
    · obtain rfl := Except.error.inj h
      exact located_unexpected hstop hls _

/-! ### Values -/

/-- What the readers refuse within `n` steps they refuse at a place in the text. -/
structure Locates (s : List Char) (stop n : ℕ) : Prop where
  value : ∀ {ls e}, Lexical ls → Placed s ls → readValue stop n ls = .error e → e.Located s
  items : ∀ {ls e}, Lexical ls → Placed s ls → readItems stop n ls = .error e → e.Located s
  entries : ∀ {nested es ls e}, Lexical ls → Placed s ls → readEntries stop nested n es ls = .error e → e.Located s

theorem readValue_located (hstop : Span.Covers ⟨stop, stop⟩ s []) (ih : Locates s stop n) (hlex : Lexical ls)
    (hls : Placed s ls) (h : readValue stop (n + 1) ls = .error e) : e.Located s := by
  cases ls with
  | nil =>
    obtain rfl := Except.error.inj h
    exact hstop
  | cons l ls =>
    rw [readValue] at h
    split at h
    case h_4 =>
      obtain ⟨reason, rfl⟩ := doubleText_error (except_map_eq_error.1 h)
      exact ⟨_, hls l List.mem_cons_self⟩
    case h_7 =>
      obtain rfl := numberValue_error (except_map_eq_error.1 h)
      exact ⟨_, hls l List.mem_cons_self⟩
    case h_8 =>
      rcases except_bind_eq_error.1 h with hentries | ⟨_, _, hok⟩
      · exact ih.entries hlex.tail hls.tail hentries
      · contradiction
    case h_9 =>
      rcases except_bind_eq_error.1 h with hitems | ⟨_, _, hok⟩
      · exact ih.items hlex.tail hls.tail hitems
      · contradiction
    case h_10 =>
      obtain rfl := Except.error.inj h
      exact located_unexpected hstop hls _
    all_goals contradiction

theorem readItems_located (hstop : Span.Covers ⟨stop, stop⟩ s []) (ih : Locates s stop n) (hlex : Lexical ls)
    (hls : Placed s ls) (h : readItems stop (n + 1) ls = .error e) : e.Located s := by
  rw [readItems.eq_def] at h
  dsimp only at h
  split at h
  · contradiction
  rcases except_bind_eq_error.1 h with hvalue | ⟨⟨v, rest⟩, hvalue, hafter⟩
  · exact ih.value hlex hls hvalue
  obtain ⟨us, rfl, -⟩ := (derives stop n).value hlex hvalue
  dsimp only at hafter
  split at hafter
  · rcases except_bind_eq_error.1 hafter with hitems | ⟨_, _, hok⟩
    · exact ih.items hlex.right.tail hls.right.tail hitems
    · contradiction
  · contradiction
  · obtain rfl := Except.error.inj hafter
    exact located_unexpected hstop hls.right _

theorem readEntries_located (hstop : Span.Covers ⟨stop, stop⟩ s []) (ih : Locates s stop n) {nested : Bool}
    {es : Entries Json} (hlex : Lexical ls) (hls : Placed s ls) (h : readEntries stop nested (n + 1) es ls = .error e) :
    e.Located s := by
  rw [readEntries] at h
  split at h
  · contradiction
  rcases except_bind_eq_error.1 h with hkey | ⟨⟨key, ls₁⟩, hkey, hentry⟩
  · exact keyText_located hstop hls hkey
  obtain ⟨l, rfl, -⟩ := keyText_sound hlex hkey
  rcases except_bind_eq_error.1 hentry with hcolon | ⟨ls₂, hcolon, hbound⟩
  · exact pastColon_located hstop hls.tail hcolon
  obtain ⟨m, rfl, -⟩ := pastColon_sound hcolon
  rcases except_bind_eq_error.1 hbound with hvalue | ⟨⟨v, ls₃⟩, hvalue, hafter⟩
  · exact ih.value hlex.tail.tail hls.tail.tail hvalue
  obtain ⟨us, rfl, -⟩ := (derives stop n).value hlex.tail.tail hvalue
  have hrest := hls.tail.tail.right
  dsimp only at hafter
  split at hafter
  · exact ih.entries hlex.tail.tail.right.tail hrest.tail hafter
  · split at hafter
    · contradiction
    · obtain rfl := Except.error.inj hafter
      exact located_unexpected hstop hrest _

theorem locates (hstop : Span.Covers ⟨stop, stop⟩ s []) : ∀ n, Locates s stop n
  | 0 => by
    refine ⟨fun _ hls h ↦ ?_, fun _ hls h ↦ ?_, fun _ hls h ↦ ?_⟩
    all_goals
      obtain rfl := Except.error.inj h
      exact located_unexpected hstop hls _
  | n + 1 => ⟨readValue_located hstop (locates hstop n), readItems_located hstop (locates hstop n),
    readEntries_located hstop (locates hstop n)⟩

/-! ### Commands -/

theorem namedCommand_located (h : namedCommand s = .error e) : e.Located s := by
  rcases except_bind_eq_error.1 h with htokens | ⟨ts, hts, hcommand⟩
  · exact located_of_tokensOf (covers_lexemes s) htokens
  have hplaced := placed_of_tokensOf (covers_lexemes s) hts
  have hlex : Lexical ts := lexical_of_lexed (i := 0) hts
  have hstop := covers_endOf hplaced
  split at hcommand
  · split at hcommand
    · rcases except_bind_eq_error.1 hcommand with hentries | ⟨_, _, hok⟩
      · exact (locates hstop _).entries hlex.tail hplaced.tail hentries
      · contradiction
    · obtain rfl := Except.error.inj hcommand
      exact located_unexpected hstop hplaced _
  · obtain rfl := Except.error.inj hcommand
    exact located_unexpected hstop hplaced _

theorem shortForm?_error (h : shortForm? s = some (.error e)) : e = .invalid ⟨0, Text.width s⟩ .noPath := by
  unfold shortForm? at h
  dsimp only at h
  split at h
  · replace h := Option.some.inj h
    split at h
    · exact (Except.error.inj h).symm
    · contradiction
  · replace h := Option.some.inj h
    split at h
    · exact (Except.error.inj h).symm
    · contradiction
  · contradiction

/-- Places count from the first character that is not blank. -/
theorem readCommand_located (h : readCommand s = .error e) : e.Located (Text.trim s) := by
  rw [readCommand] at h
  split at h
  · next answer hshort =>
    rw [h] at hshort
    obtain rfl := shortForm?_error hshort
    exact ⟨_, Span.covers_whole _⟩
  · exact namedCommand_located h

/-! ### Payloads -/

theorem intercalate_prepend {ps : List (List Char)} (h : ps ≠ []) (s sep : List Char) :
    sep.intercalate (prepend s ps) = s ++ sep.intercalate ps := by
  obtain ⟨p, ps, rfl⟩ := List.exists_cons_of_ne_nil h
  cases ps with
  | nil => rw [prepend, List.intercalate_singleton, List.intercalate_singleton]
  | cons q qs => rw [prepend, List.intercalate_cons_cons, List.intercalate_cons_cons, List.append_assoc, List.append_assoc,
      List.append_assoc]

theorem intercalate_segments (q : Quoting) (s : List Char) : [';'].intercalate (segments q s) = s := by
  induction s generalizing q with
  | nil => rfl
  | cons c s ih =>
    by_cases hcut : q = .outside ∧ c = ';'
    · obtain ⟨rfl, rfl⟩ := hcut
      have hrest := ih .outside
      obtain ⟨p, ps, hps⟩ := List.exists_cons_of_ne_nil (segments_ne_nil .outside s)
      rw [segments, if_pos ⟨rfl, rfl⟩]
      rw [hps] at hrest ⊢
      rw [List.intercalate_cons_cons, hrest]
      rfl
    · rw [segments_cons hcut, intercalate_prepend (segments_ne_nil _ _), ih]
      rfl

theorem intercalate_cons (p : List Char) (ps : List (List Char)) :
    ∃ r, [';'].intercalate (p :: ps) = p ++ r ∧ (ps ≠ [] → r = ';' :: [';'].intercalate ps) := by
  cases ps with
  | nil => exact ⟨[], by rw [List.intercalate_singleton, List.append_nil], by simp⟩
  | cons q qs => exact ⟨_, by rw [List.intercalate_cons_cons, List.append_assoc]; rfl, fun _ ↦ rfl⟩

theorem width_past_semicolon (a p : List Char) : Text.width (a ++ p ++ [';']) = Text.width a + Text.width p + 1 := by
  rw [Text.width_append, Text.width_append]
  rfl

theorem takeWhile_append_trim (p : List Char) : ∃ b, p = p.takeWhile Text.isBlank ++ (Text.trim p ++ b) := by
  obtain ⟨b, hb, -⟩ := Text.trimEnd_append_blanks (Text.trimStart p)
  exact ⟨b, by rw [Text.trim, ← hb, Text.trimStart, List.takeWhile_append_dropWhile]⟩

/-- A command is refused at a place in its piece, whatever stands around the piece. -/
theorem readCommand_shifted {p : List Char} (h : readCommand p = .error e) (a r : List Char) :
    (e.shift (Text.width a + (Text.width p - Text.width (Text.trimStart p)))).Located (a ++ p ++ r) := by
  obtain ⟨b, hp⟩ := takeWhile_append_trim p
  have hleading : Text.width p - Text.width (Text.trimStart p) = Text.width (p.takeWhile Text.isBlank) := by
    have hwidth := congrArg Text.width (List.takeWhile_append_dropWhile (p := Text.isBlank) (l := p))
    rw [Text.width_append] at hwidth
    rw [Text.trimStart]
    omega
  have hlocated := (readCommand_located h).shift (a ++ p.takeWhile Text.isBlank) (b ++ r)
  rw [Text.width_append, ← hleading] at hlocated
  have hwhole : a ++ p ++ r = a ++ p.takeWhile Text.isBlank ++ Text.trim p ++ (b ++ r) := by
    nth_rewrite 1 [hp]
    simp
  rwa [hwhole]

theorem readSegments_located (ps : List (List Char)) (a : List Char) (h : readSegments (Text.width a) ps = .error e) :
    e.Located (a ++ [';'].intercalate ps) := by
  induction ps generalizing a with
  | nil => contradiction
  | cons p ps ih =>
    obtain ⟨r, hr, hps⟩ := intercalate_cons p ps
    have hrest : readSegments (Text.width a + Text.width p + 1) ps = .error e → e.Located (a ++ (p ++ r)) := by
      intro hread
      have hne : ps ≠ [] := by
        rintro rfl
        contradiction
      have hlocated := ih (a ++ p ++ [';']) (by rwa [width_past_semicolon])
      rw [hps hne]
      simpa using hlocated
    rw [hr]
    rw [readSegments] at h
    split at h
    · exact hrest h
    · dsimp only at h
      split at h
      · next hcommand =>
        obtain rfl := Except.error.inj h
        rw [← List.append_assoc]
        exact readCommand_shifted hcommand a r
      · exact hrest (except_map_eq_error.1 h)

/-- What reading refuses, it refuses at a place in the text. -/
theorem located_of_read (h : read s = .error e) : e.Located s := by
  rcases except_bind_eq_error.1 h with hsegments | ⟨cs, -, hnone⟩
  · have hlocated := readSegments_located (segments .outside s) [] hsegments
    rwa [List.nil_append, intercalate_segments] at hlocated
  · split at hnone
    · obtain rfl := Except.error.inj hnone
      exact ⟨s, [], by simp, by simp⟩
    · contradiction

/-! ### Commands in the text -/

/-- The pieces that hold commands, without the blanks around them. -/
def inked (ps : List (List Char)) : List (List Char) := (ps.map Text.trim).filter (· ≠ [])

def places : ℕ → List (List Char) → List Span
  | _, [] => []
  | i, p :: ps =>
    let start := i + Text.width (p.takeWhile Text.isBlank)
    if Text.trim p = [] then places (i + Text.width p + 1) ps
    else ⟨start, start + Text.width (Text.trim p)⟩ :: places (i + Text.width p + 1) ps

variable {i : ℕ} {p r : List Char} {ps : List (List Char)} {c : Command} {cs : Commands}

theorem inked_cons_of_blank (h : Text.trim p = []) (ps : List (List Char)) : inked (p :: ps) = inked ps := by
  simp [inked, h]

theorem inked_cons_of_inked (h : Text.trim p ≠ []) (ps : List (List Char)) : inked (p :: ps) = Text.trim p :: inked ps := by
  simp [inked, h]

theorem places_cons_of_blank (h : Text.trim p = []) (i : ℕ) (ps : List (List Char)) :
    places i (p :: ps) = places (i + Text.width p + 1) ps := if_pos h

theorem places_cons_of_inked (h : Text.trim p ≠ []) (i : ℕ) (ps : List (List Char)) :
    places i (p :: ps) = ⟨i + Text.width (p.takeWhile Text.isBlank),
      i + Text.width (p.takeWhile Text.isBlank) + Text.width (Text.trim p)⟩ :: places (i + Text.width p + 1) ps := if_neg h

theorem places_covers (ps : List (List Char)) (a : List Char) :
    List.Forall₂ (fun σ w ↦ Span.Covers σ (a ++ [';'].intercalate ps) w) (places (Text.width a) ps) (inked ps) := by
  induction ps generalizing a with
  | nil => exact .nil
  | cons p ps ih =>
    obtain ⟨r, hr, hps⟩ := intercalate_cons p ps
    have hrest : List.Forall₂ (fun σ w ↦ Span.Covers σ (a ++ (p ++ r)) w) (places (Text.width a + Text.width p + 1) ps)
        (inked ps) := by
      cases ps with
      | nil => exact .nil
      | cons q qs =>
        have hbehind := ih (a ++ p ++ [';'])
        rw [width_past_semicolon] at hbehind
        rw [hps (by simp)]
        simpa using hbehind
    rw [hr]
    by_cases hblank : Text.trim p = []
    · rwa [places_cons_of_blank hblank, inked_cons_of_blank hblank]
    · obtain ⟨b, hb⟩ := takeWhile_append_trim p
      rw [places_cons_of_inked hblank, inked_cons_of_inked hblank]
      refine .cons ⟨a ++ p.takeWhile Text.isBlank, b ++ r, ?_, ?_⟩ hrest
      · nth_rewrite 1 [hb]
        simp
      · rw [Text.width_append, Text.width_append, Text.width_append]

theorem le_start_of_mem_places (h : σ ∈ places i ps) : i ≤ σ.start := by
  induction ps generalizing i with
  | nil => contradiction
  | cons p ps ih =>
    by_cases hblank : Text.trim p = []
    · rw [places_cons_of_blank hblank] at h
      have := ih h
      omega
    · rw [places_cons_of_inked hblank] at h
      rcases List.mem_cons.1 h with rfl | h
      · exact Nat.le_add_right _ _
      · have := ih h
        omega

theorem pairwise_places (i : ℕ) (ps : List (List Char)) : (places i ps).Pairwise fun σ τ ↦ σ.stop < τ.start := by
  induction ps generalizing i with
  | nil => exact .nil
  | cons p ps ih =>
    by_cases hblank : Text.trim p = []
    · rw [places_cons_of_blank hblank]
      exact ih _
    · rw [places_cons_of_inked hblank]
      refine .cons (fun τ hτ ↦ ?_) (ih _)
      have hstart := le_start_of_mem_places hτ
      obtain ⟨b, hb⟩ := takeWhile_append_trim p
      have hwidth := congrArg Text.width hb
      rw [Text.width_append, Text.width_append] at hwidth
      dsimp only
      omega

theorem isBlank_of_gap {c : Char} (h : isGap c = true) : Text.isBlank c = true := by
  simp only [isGap, Bool.or_eq_true, beq_iff_eq, or_assoc] at h
  rcases h with rfl | rfl | rfl | rfl <;> rfl

theorem start_of_tokensOf {first : Lexed} {rest : List Lexed} (h : tokensOf (lexemes (Text.trim s)) = .ok (first :: rest)) :
    first.start = 0 := by
  have hink := (Text.trim_eq_self_iff.1 (Text.trim_trim s)).1
  cases htrim : Text.trim s with
  | nil =>
    rw [htrim] at h
    exact absurd (Except.ok.inj h) (List.cons_ne_nil _ _).symm
  | cons c t =>
    rw [htrim] at h hink
    have hgap : ¬ isGap c = true := by
      intro hgap
      have hblank := isBlank_of_gap hgap
      rw [hink c rfl] at hblank
      contradiction
    rw [lexemes, List.length_cons, lexemesFrom, if_neg hgap, tokensOf] at h
    split at h
    · contradiction
    · obtain ⟨_, -, hcons⟩ := except_map_eq_ok.1 h
      obtain ⟨rfl, -⟩ := List.cons.inj hcons
      rfl

theorem shortForm?_span (h : shortForm? s = some (.ok c)) : c.span? = some ⟨0, Text.width s⟩ := by
  unfold shortForm? at h
  dsimp only at h
  split at h
  · replace h := Option.some.inj h
    split at h
    · contradiction
    · exact congrArg Command.span? (Except.ok.inj h).symm
  · replace h := Option.some.inj h
    split at h
    · contradiction
    · exact congrArg Command.span? (Except.ok.inj h).symm
  · contradiction

/-- The span of a command counts from the beginning of its piece. -/
theorem readCommand_span (h : readCommand p = .ok c) : c.span? = some ⟨0, Text.width (Text.trim p)⟩ := by
  rw [readCommand] at h
  split at h
  · next hshort =>
    rw [h] at hshort
    exact shortForm?_span hshort
  · obtain ⟨first, rest, name, ps, hts, -, -, -, -, -, hspan⟩ := namedCommand_iff.1 h
    rw [hspan, start_of_tokensOf hts]

theorem readSegments_inked (h : readSegments i ps = .ok cs) (j : ℕ) :
    List.Forall₂ (fun c w ↦ readCommand w = .ok c) cs (inked ps) ∧
      List.Forall₂ (fun c σ ↦ Command.span? c = some ⟨0, σ.stop - σ.start⟩) cs (places j ps) := by
  induction ps generalizing i j cs with
  | nil =>
    obtain rfl := Except.ok.inj h
    exact ⟨.nil, .nil⟩
  | cons p ps ih =>
    rcases (readSegments_cons p ps).1 h with ⟨hblank, hrest⟩ | ⟨hink, c, ds, hc, hrest, rfl⟩
    · rw [inked_cons_of_blank hblank, places_cons_of_blank hblank]
      exact ih hrest _
    · obtain ⟨hcommands, hspans⟩ := ih hrest (j + Text.width p + 1)
      rw [inked_cons_of_inked hink, places_cons_of_inked hink]
      refine ⟨.cons ?_ hcommands, .cons ?_ hspans⟩
      · rw [← hc, readCommand, readCommand, Text.trim_trim]
      · rw [readCommand_span hc, Nat.add_sub_cancel_left]

/-- A command stands at the very beginning when no blank and no semicolon does. -/
theorem start_places_iff {σs : List Span} (h : places 0 (segments .outside s) = σ :: σs) :
    σ.start = 0 ↔ ∃ x ∈ s.head?, Text.isBlank x = false ∧ x ≠ ';' := by
  have hfirst : σ ∈ places 0 (segments .outside s) := by
    rw [h]
    exact List.mem_cons_self
  cases s with
  | nil => contradiction
  | cons x s =>
    have hhead : (∃ y ∈ (x :: s).head?, Text.isBlank y = false ∧ y ≠ ';') ↔ Text.isBlank x = false ∧ x ≠ ';' := by simp
    rw [hhead]
    by_cases hcut : x = ';'
    · subst hcut
      rw [segments, if_pos ⟨rfl, rfl⟩, places_cons_of_blank rfl] at hfirst
      have := le_start_of_mem_places hfirst
      exact iff_of_false (by omega) (by simp)
    obtain ⟨p, ps, hps⟩ := List.exists_cons_of_ne_nil (segments_ne_nil (Quoting.outside.step x) s)
    rw [segments_cons (by simp [hcut]), hps, prepend, List.singleton_append] at h hfirst
    cases hblank : Text.isBlank x with
    | false =>
      have hink : Text.trim (x :: p) ≠ [] := by
        rw [Text.trim, Text.trimStart_cons_of_not_blank hblank, Text.trimEnd_cons_of_not_blank hblank]
        exact List.cons_ne_nil _ _
      rw [places_cons_of_inked hink, List.takeWhile_cons_of_neg (by simp [hblank])] at h
      obtain ⟨rfl, -⟩ := List.cons.inj h
      exact iff_of_true rfl ⟨rfl, hcut⟩
    | true =>
      have hpos := x.utf8Size_pos
      refine iff_of_false ?_ (by simp)
      by_cases hall : Text.trim (x :: p) = []
      · rw [places_cons_of_blank hall] at hfirst
        have := le_start_of_mem_places hfirst
        omega
      · rw [places_cons_of_inked hall, List.takeWhile_cons_of_pos hblank, Text.width_cons] at h
        obtain ⟨rfl, -⟩ := List.cons.inj h
        dsimp only
        omega

theorem span_eq_iff {c : Command} (h : c.span? = some ⟨0, σ.stop - σ.start⟩) : c.span? = some σ ↔ σ.start = 0 := by
  rw [h, Option.some_inj]
  constructor
  · intro heq
    rw [← heq]
  · intro hzero
    rw [hzero, Nat.sub_zero, ← hzero]

/-- Where the commands of a payload stand: each is what the piece there gives when it is read alone, and there is at least
a semicolon between two of them. The span that a command carries has the length of its piece but begins at zero, so that
the spans are right exactly for a single command at the very beginning. An error is moved to its place. -/
theorem read_places (s : List Char) : (∀ e, read s = .error e → e.Located s) ∧ ∀ cs, read s = .ok cs → ∃ σs : List Span,
    List.Forall₂ (fun σ w ↦ Span.Covers σ s w) σs (inked (segments .outside s)) ∧
      σs.Pairwise (fun σ τ ↦ σ.stop < τ.start) ∧
      List.Forall₂ (fun c w ↦ readCommand w = .ok c) cs (inked (segments .outside s)) ∧
      List.Forall₂ (fun c σ ↦ Command.span? c = some ⟨0, σ.stop - σ.start⟩) cs σs ∧
      (List.Forall₂ (fun c σ ↦ Command.span? c = some σ) cs σs ↔
        cs.length = 1 ∧ ∃ x ∈ s.head?, Text.isBlank x = false ∧ x ≠ ';') := by
  refine ⟨fun e h ↦ located_of_read h, fun cs h ↦ ?_⟩
  obtain ⟨hsegments, hne⟩ := read_iff.1 h
  obtain ⟨hcommands, hspans⟩ := readSegments_inked hsegments 0
  have hcovers := places_covers (segments .outside s) []
  rw [List.nil_append, intercalate_segments, Text.width_nil] at hcovers
  have hpairwise := pairwise_places 0 (segments .outside s)
  refine ⟨places 0 (segments .outside s), hcovers, hpairwise, hcommands, hspans, ?_⟩
  match hplaces : places 0 (segments .outside s), hspans, hpairwise with
  | [], .nil, _ => contradiction
  | [σ], .cons hc .nil, _ => simp [span_eq_iff hc, start_places_iff hplaces]
  | σ :: τ :: σs, .cons hc (.cons hd hrest), hpairwise =>
    have hlt := List.rel_of_pairwise_cons hpairwise List.mem_cons_self
    refine iff_of_false (fun hall ↦ ?_) (by simp)
    have hbehind := (List.forall₂_cons.1 hall).2
    have hstart := (span_eq_iff hd).1 (List.forall₂_cons.1 hbehind).1
    omega

/-- Two commands of which the second is placed as if it stood first. -/
theorem read_places_second : ∃ cs, read "a; b".toList = .ok cs ∧ cs.map Command.span? = [some ⟨0, 1⟩, some ⟨0, 1⟩] ∧
    ∃ σs : List Span, List.Forall₂ (fun σ w ↦ Span.Covers σ "a; b".toList w) σs [['a'], ['b']] ∧
      ¬ List.Forall₂ (fun c σ ↦ Command.span? c = some σ) cs σs := by
  have hread : (read "a; b".toList).map (List.map Command.span?) = .ok [some ⟨0, 1⟩, some ⟨0, 1⟩] := by decide +kernel
  obtain ⟨cs, hcs, hspans⟩ := except_map_eq_ok.1 hread
  obtain ⟨σs, hcovers, -, -, -, hright⟩ := (read_places "a; b".toList).2 cs hcs
  refine ⟨cs, hcs, hspans, σs, hcovers, fun hall ↦ ?_⟩
  have hlength := congrArg List.length hspans
  rw [List.length_map, (hright.1 hall).1] at hlength
  contradiction

end Payload

end Stencil
