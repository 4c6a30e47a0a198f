import Stencil.Proofs.Data.Addressing
import Stencil.Proofs.Payload.Joining
import Stencil.Run.Selection
/-!
Which paths a short form can hold. A short form has no strings and no braces of its own, but the search for the
closing delimiter and the cut at semicolons read the path as if it had: a path comes through as it is written
when its quotes are closed, and outside of them its braces pair up and there is no semicolon.
-/

namespace Stencil

namespace Payload

def unquoted : Quoting → List Char → List Char
  | _, [] => []
  | q, c :: s => if q = .outside ∧ q.step c = .outside then c :: unquoted .outside s else unquoted (q.step c) s

/-- Braces that pair up behind a number of open ones: no beginning closes more of them than are open, and in the
end all are closed. -/
structure Matched (depth : ℕ) (s : List Char) : Prop where
  front : ∀ p ∈ s.inits, p.count '\x7d' ≤ depth + p.count '\x7b'
  whole : s.count '\x7d' = depth + s.count '\x7b'

/-- A text that neither the search for the closing delimiter nor the cut at semicolons stops in. -/
structure Contained (s : List Char) : Prop where
  quotes : Quoting.outside.after s = .outside
  semicolon : ';' ∉ unquoted .outside s
  braces : Matched 0 (unquoted .outside s)

/-- A text whose brackets stand around digits only. -/
inductive Indexed : List Char → Prop
  | nil : Indexed []
  | char {c s} : c ≠ '[' → c ≠ ']' → Indexed s → Indexed (c :: s)
  | index {ds s} : (∀ c ∈ ds, c.isDigit = true) → Indexed s → Indexed ('[' :: ds ++ ']' :: s)

variable {q : Quoting} {depth : ℕ} {c : Char} {p s t : List Char}

theorem Indexed.append (hp : ∀ c ∈ p, c ≠ '[' ∧ c ≠ ']') (hs : Indexed s) : Indexed (p ++ s) := by
  induction p with
  | nil => exact hs
  | cons c p ih =>
    obtain ⟨hopen, hclose⟩ := hp c (by simp)
    exact .char hopen hclose (ih fun d hd ↦ hp d (by simp [hd]))

/-! ### Quotes -/

/-- Quotes as a text opens them. -/
def Quoting.Usual : Quoting → Prop
  | outside => True
  | inside quote => quote = '"' ∨ quote = '\''
  | escaped quote => quote = '"' ∨ quote = '\''

theorem Quoting.Usual.step (h : q.Usual) (c : Char) : (q.step c).Usual := by
  cases q with
  | outside =>
    rw [Quoting.step]
    split_ifs with hquote
    · exact hquote
    · trivial
  | inside quote =>
    rw [Quoting.step]
    split_ifs
    · exact h
    · trivial
    · exact h
  | escaped quote => exact h

theorem step_outside (h : c ≠ '"' ∧ c ≠ '\'') : Quoting.outside.step c = .outside := by
  simp [Quoting.step, h.1, h.2]

/-- Inside of quotes only the quote itself leads out. -/
theorem Quoting.Usual.step_ne (h : q.Usual) (hq : q ≠ .outside) (hc : c ≠ '"' ∧ c ≠ '\'') : q.step c ≠ .outside := by
  cases q with
  | outside => contradiction
  | inside quote =>
    have hne : c ≠ quote := by
      rintro rfl
      exact h.elim hc.1 hc.2
    rw [Quoting.step, if_neg hne]
    split_ifs <;> simp
  | escaped quote => simp [Quoting.step]

theorem plain_or_quoting (q : Quoting) (c : Char) :
    (q = .outside ∧ c ≠ '"' ∧ c ≠ '\'') ∨ (q = .outside → c = '"' ∨ c = '\'') := by
  by_cases hquote : c = '"' ∨ c = '\''
  · exact .inr fun _ ↦ hquote
  · by_cases hq : q = .outside
    · exact .inl ⟨hq, not_or.1 hquote⟩
    · exact .inr fun h ↦ absurd h hq

theorem unquoted_outside (h : c ≠ '"' ∧ c ≠ '\'') (s : List Char) : unquoted .outside (c :: s) = c :: unquoted .outside s := by
  rw [unquoted, if_pos ⟨rfl, step_outside h⟩]

theorem unquoted_other (h : q = .outside → c = '"' ∨ c = '\'') (s : List Char) : unquoted q (c :: s) = unquoted (q.step c) s := by
  rw [unquoted, if_neg]
  rintro ⟨rfl, hstep⟩
  simp [Quoting.step, h rfl] at hstep

theorem after_outside (hp : ∀ c ∈ p, c ≠ '"' ∧ c ≠ '\'') (s : List Char) :
    Quoting.outside.after (p ++ s) = Quoting.outside.after s := by
  induction p with
  | nil => rfl
  | cons c p ih =>
    have hstep : Quoting.outside.after (c :: p ++ s) = (Quoting.outside.step c).after (p ++ s) := rfl
    rw [hstep, step_outside (hp c (by simp)), ih fun d hd ↦ hp d (by simp [hd])]

theorem unquoted_append (hp : ∀ c ∈ p, c ≠ '"' ∧ c ≠ '\'') (s : List Char) :
    unquoted .outside (p ++ s) = p ++ unquoted .outside s := by
  induction p with
  | nil => rfl
  | cons c p ih =>
    rw [List.cons_append, unquoted_outside (hp c (by simp)), ih fun d hd ↦ hp d (by simp [hd])]
    rfl

/-! ### Braces -/

theorem matched_nil : Matched depth [] ↔ depth = 0 := by
  constructor
  · intro h
    have := h.whole
    simp at this
    exact this.symm
  · rintro rfl
    exact ⟨by simp, rfl⟩

theorem matched_cons_of_count {n : ℕ} (h : ∀ p : List Char, depth + (c :: p).count '\x7b' + p.count '\x7d' =
    (c :: p).count '\x7d' + (n + p.count '\x7b')) : Matched depth (c :: s) ↔ Matched n s := by
  have hwhole := h s
  constructor
  · intro hs
    have := hs.whole
    refine ⟨fun p hp ↦ ?_, by omega⟩
    have hfront := hs.front (c :: p) (by simpa using hp)
    have hcount := h p
    omega
  · intro hs
    have := hs.whole
    refine ⟨fun p hp ↦ ?_, by omega⟩
    rw [List.inits_cons, List.mem_cons, List.mem_map] at hp
    rcases hp with rfl | ⟨p, hp, rfl⟩
    · simp
    · have hfront := hs.front p hp
      have hcount := h p
      omega

theorem matched_other (hopen : c ≠ '\x7b') (hclose : c ≠ '\x7d') : Matched depth (c :: s) ↔ Matched depth s := by
  apply matched_cons_of_count
  intro p
  rw [List.count_cons_of_ne hopen, List.count_cons_of_ne hclose]
  omega

theorem matched_append (hp : ∀ c ∈ p, c ≠ '\x7b' ∧ c ≠ '\x7d') : Matched depth (p ++ s) ↔ Matched depth s := by
  induction p with
  | nil => rfl
  | cons c p ih =>
    obtain ⟨hopen, hclose⟩ := hp c (by simp)
    rw [List.cons_append, matched_other hopen hclose, ih fun d hd ↦ hp d (by simp [hd])]

theorem matched_cons (hc : c ≠ '[' ∧ c ≠ ']') :
    Matched depth (c :: s) ↔ (depth = 0 → c ≠ '\x7d') ∧ Matched (deepen depth c) s := by
  by_cases hopen : c = '\x7b'
  · subst hopen
    have hmatched : Matched depth ('\x7b' :: s) ↔ Matched (depth + 1) s := by
      apply matched_cons_of_count
      intro p
      rw [List.count_cons_self, List.count_cons_of_ne (by decide)]
      omega
    simpa [deepen] using hmatched
  by_cases hclose : c = '\x7d'
  · subst hclose
    cases depth with
    | zero =>
      refine iff_of_false (fun h ↦ ?_) fun h ↦ h.1 rfl rfl
      have := h.front ['\x7d'] (by simp)
      simp at this
    | succ n =>
      have hmatched : Matched (n + 1) ('\x7d' :: s) ↔ Matched n s := by
        apply matched_cons_of_count
        intro p
        rw [List.count_cons_self, List.count_cons_of_ne (by decide)]
        omega
      simpa [deepen] using hmatched
  · rw [matched_other hopen hclose]
    simp [deepen, hopen, hclose, hc.1, hc.2]

/-! ### The search for the closing delimiter -/

/-- The search for a closing brace ends behind a text exactly when its quotes are closed there, and so are the
braces outside of them. -/
def Agrees (q : Quoting) (depth : ℕ) (s : List Char) : Prop :=
  close ['\x7d'] q depth (s ++ ['\x7d']) = some (s, []) ↔ q.after s = .outside ∧ Matched depth (unquoted q s)

theorem agrees_nil : Agrees q depth [] := by
  have hclose : close ['\x7d'] q depth (['\x7d'] ++ []) = some ([], []) ↔ q = .outside ∧ depth = 0 :=
    close_nil_iff (by simp)
  have hnil : unquoted q [] = [] := by rw [unquoted]
  rw [Agrees, hnil, matched_nil]
  exact hclose

theorem agrees_cons (hc : q = .outside → c ≠ '[' ∧ c ≠ ']') (h : Agrees (q.step c) (q.deepen depth c) s) :
    Agrees q depth (c :: s) := by
  have hstrip : Text.stripPrefix? ['\x7d'] (c :: (s ++ ['\x7d'])) = none ↔ c ≠ '\x7d' := by
    simp [Text.stripPrefix?, eq_comm]
  have hafter : q.after (c :: s) = (q.step c).after s := rfl
  rw [Agrees] at h ⊢
  rw [List.cons_append, close_cons_iff, hstrip, h, hafter, and_left_comm]
  apply and_congr_right'
  rcases plain_or_quoting q c with ⟨rfl, hquote⟩ | hquote
  · rw [unquoted_outside hquote, matched_cons (hc rfl), step_outside hquote, Quoting.deepen, if_pos rfl]
    simp
  · -- a quote, or a character within quotes, is no brace that counts
    have hdeepen : q.deepen depth c = depth := by
      rw [Quoting.deepen]
      split_ifs with hq
      · rcases hquote hq with rfl | rfl <;> rfl
      · rfl
    rw [unquoted_other hquote, hdeepen]
    refine and_iff_right fun hq ↦ ?_
    rcases hquote hq.1 with rfl | rfl <;> decide

theorem plain_of_isDigit (h : c.isDigit = true) : Sealed.Plain c := by
  refine ⟨?_, ?_, ?_, ?_, ?_, ?_, ?_⟩ <;> (rintro rfl; exact absurd h (by decide))

/-- Within quotes a text is passed over character by character as long as it has no quotes. -/
theorem agrees_inside (hq : q.Usual) (hout : q ≠ .outside) (hp : ∀ c ∈ p, c ≠ '"' ∧ c ≠ '\'')
    (h : ∀ {q : Quoting} {depth : ℕ}, q.Usual → Agrees q depth s) : Agrees q depth (p ++ s) := by
  induction p generalizing q depth with
  | nil => exact h hq
  | cons c p ih =>
    have hstep := hq.step_ne hout (hp c (by simp))
    refine agrees_cons (fun hin ↦ absurd hin hout) ?_
    exact ih (hq.step c) hstep fun d hd ↦ hp d (by simp [hd])

theorem agrees_of_indexed (hs : Indexed s) (hq : q.Usual) : Agrees q depth s := by
  induction hs generalizing q depth with
  | nil => exact agrees_nil
  | @char c s hopen hclose _ ih => exact agrees_cons (fun _ ↦ ⟨hopen, hclose⟩) (ih (hq.step c))
  | @index ds s hds _ ih =>
    have hdigits : ∀ c ∈ ds, Sealed.Plain c := fun c hc ↦ plain_of_isDigit (hds c hc)
    have hlevel := ((Sealed.chars hdigits).nest (.inr rfl) (.inr rfl)).level
    have hblock : ∀ c ∈ '[' :: ds ++ [']'], (c ≠ '"' ∧ c ≠ '\'') ∧ c ≠ '\x7b' ∧ c ≠ '\x7d' := by
      simp only [List.cons_append, List.mem_cons, List.mem_append, List.not_mem_nil, or_false]
      rintro c (rfl | hc | rfl)
      · decide
      · obtain ⟨hdouble, hsingle, hopen, -, hclose, -⟩ := hdigits c hc
        exact ⟨⟨hdouble, hsingle⟩, hopen, hclose⟩
      · decide
    rw [show '[' :: ds ++ ']' :: s = '[' :: ds ++ [']'] ++ s by simp]
    generalize '[' :: ds ++ [']'] = w at hlevel hblock
    have hquotes : ∀ c ∈ w, c ≠ '"' ∧ c ≠ '\'' := fun c hc ↦ (hblock c hc).1
    by_cases hout : q = .outside
    · subst hout
      have hrest : Agrees .outside depth s := ih hq
      rw [Agrees] at hrest ⊢
      rw [List.append_assoc, hlevel _ ⟨_, _, rfl, .inl rfl⟩, after_outside hquotes, unquoted_append hquotes,
        matched_append fun c hc ↦ (hblock c hc).2, ← hrest]
      simp [Prod.ext_iff]
    · exact agrees_inside hq hout hquotes ih

/-! ### The cut at semicolons -/

theorem semicolon_mem_unquoted_cons : ';' ∈ unquoted q (c :: s) ↔ q = .outside ∧ c = ';' ∨ ';' ∈ unquoted (q.step c) s := by
  rcases plain_or_quoting q c with ⟨rfl, hquote⟩ | hquote
  · rw [unquoted_outside hquote, step_outside hquote, List.mem_cons]
    simp [eq_comm]
  · rw [unquoted_other hquote, or_iff_right]
    rintro ⟨hq, rfl⟩
    rcases hquote hq with h | h <;> exact absurd h (by decide)

theorem segments_whole (h : ';' ∉ unquoted q s) : segments q s = [s] := by
  induction s generalizing q with
  | nil => rfl
  | cons c s ih =>
    rw [semicolon_mem_unquoted_cons, not_or] at h
    rw [segments_cons h.1, ih h.2]
    rfl

theorem segments_front (h : ';' ∈ unquoted q s) : ∃ p ps, segments q s = p :: ps ∧ p.length < s.length := by
  induction s generalizing q with
  | nil => simp [unquoted] at h
  | cons c s ih =>
    by_cases hcut : q = .outside ∧ c = ';'
    · rw [segments, if_pos hcut]
      exact ⟨_, _, rfl, by simp⟩
    · rw [semicolon_mem_unquoted_cons, or_iff_right hcut] at h
      obtain ⟨p, ps, hseg, hlen⟩ := ih h
      rw [segments_cons hcut, hseg]
      exact ⟨c :: p, ps, rfl, by simpa using hlen⟩

/-! ### Reading -/

variable {m : Char}

theorem isMark_iff : isMark m = true ↔ m = '$' ∨ m = '@' := by simp [isMark]

theorem trim_mark (hm : isMark m = true) (p : List Char) : Text.trim (m :: p) = m :: Text.trimEnd p := by
  have hink : Text.isBlank m = false := by rcases isMark_iff.1 hm with rfl | rfl <;> rfl
  rw [Text.trim, Text.trimStart_cons_of_not_blank hink, Text.trimEnd_cons_of_not_blank hink]

theorem readCommand_mark (hm : isMark m = true) (p : List Char) :
    readCommand (m :: p) = if Text.trim (Text.trimEnd p) = [] then
      .error (.invalid ⟨0, Text.width (m :: Text.trimEnd p)⟩ .noPath)
    else .ok ⟨insertion, [(String.singleton m ++ "value", .str (String.ofList (Text.trim (Text.trimEnd p))))],
      some ⟨0, Text.width (m :: Text.trimEnd p)⟩⟩ := by
  rw [readCommand, trim_mark hm]
  rcases isMark_iff.1 hm with rfl | rfl
  · have hkey : String.singleton '$' ++ "value" = "$value" := by decide
    rw [hkey]
    cases hpath : Text.trim (Text.trimEnd p) <;> simp [shortForm?, hpath]
  · have hkey : String.singleton '@' ++ "value" = "@value" := by decide
    rw [hkey]
    cases hpath : Text.trim (Text.trimEnd p) <;> simp [shortForm?, hpath]

/-- A mark and a path are read as one insertion of that path exactly when no semicolon of it stands outside of
quotes. -/
theorem read_mark_iff (hm : isMark m = true) (htrim : Text.trim t = t) (hne : t ≠ []) :
    (∃ span?, read (m :: t) = .ok [⟨insertion, [(String.singleton m ++ "value", .str (String.ofList t))], span?⟩]) ↔
      ';' ∉ unquoted .outside t := by
  have hstep : Quoting.outside.step m = .outside := by rcases isMark_iff.1 hm with rfl | rfl <;> rfl
  have hsemicolon : ¬(Quoting.outside = .outside ∧ m = ';') := by
    rcases isMark_iff.1 hm with rfl | rfl <;> decide
  have hink : ∀ p, Text.trim (m :: p) ≠ [] := fun p ↦ by
    rw [trim_mark hm]
    simp
  simp only [read_iff, segments_cons hsemicolon, hstep]
  constructor
  · rintro ⟨span?, hread, -⟩ hmem
    obtain ⟨p, ps, hseg, hlen⟩ := segments_front hmem
    rw [hseg] at hread
    rcases (readSegments_cons (m :: p) ps).1 hread with ⟨hblank, -⟩ | ⟨-, c, cs, hc, -, hcs⟩
    · exact hink p hblank
    obtain ⟨rfl, -⟩ := List.cons.inj hcs
    rw [readCommand_mark hm] at hc
    split at hc
    · contradiction
    -- the piece in front of the semicolon is too short to hold the path
    have hpath : Text.trim (Text.trimEnd p) = t := by
      have hparams := congrArg Command.params (Except.ok.inj hc)
      simpa [String.ofList_inj] using hparams
    have hle := ((Text.trim_sublist _).trans (Text.trimEnd_sublist p)).length_le
    rw [hpath] at hle
    omega
  · intro hmem
    have hstart : Text.trimStart t = t := by
      obtain ⟨c, r, rfl⟩ := List.exists_cons_of_ne_nil hne
      exact Text.trimStart_cons_of_not_blank ((Text.trim_eq_self_iff.1 htrim).1 c rfl)
    have hend : Text.trimEnd t = t := by rwa [Text.trim, hstart] at htrim
    have hcommand := readCommand_mark hm t
    rw [hend, htrim, if_neg hne] at hcommand
    rw [segments_whole hmem]
    refine ⟨_, (readSegments_cons (m :: t) []).2 (.inr ⟨hink t, _, [], hcommand, rfl, rfl⟩), by simp⟩

end Payload

namespace Path

open Payload (Indexed)

theorem isNameChar_bracket {c : Char} (h : isNameChar c = true) : c ≠ '[' ∧ c ≠ ']' := by
  obtain ⟨-, -, -, hopen, hclose, -⟩ := isNameChar_ne h
  exact ⟨hopen, hclose⟩

/-- Every token but the unknown one has its brackets around digits. -/
theorem indexed_nextToken {c : Char} {s : List Char}
    (h : (nextToken c s).1 ≠ .unknown ∧ Indexed (nextToken c s).2) : Indexed (c :: s) := by
  have hname : Indexed (s.dropWhile isNameChar) → Indexed s := fun h ↦ by
    rw [← List.takeWhile_append_dropWhile (p := isNameChar) (l := s)]
    exact Indexed.append (fun d hd ↦ isNameChar_bracket (all_takeWhile _ _ d hd)) h
  unfold nextToken at h
  split_ifs at h with hdot hparent hroot hindex hvariable hchar
  · subst hdot
    exact .char (by decide) (by decide) h.2
  · subst hparent
    exact .char (by decide) (by decide) h.2
  · subst hroot
    exact .char (by decide) (by decide) h.2
  · subst hindex
    split at h
    · next d ds r htake hdrop =>
      have hr : Indexed r := by
        dsimp only at h
        split at h <;> exact h.2
      rw [← List.takeWhile_append_dropWhile (p := Char.isDigit) (l := s), htake, hdrop]
      exact .index (fun e he ↦ all_takeWhile _ s e (htake ▸ he)) hr
    · exact absurd rfl h.1
  · subst hvariable
    split at h
    · exact absurd rfl h.1
    · exact .char (by decide) (by decide) (hname h.2)
  · obtain ⟨hopen, hclose⟩ := isNameChar_bracket hchar
    exact .char hopen hclose (hname h.2)
  · exact absurd rfl h.1

theorem indexed_tokensFrom {n i : ℕ} {s : List Char} (hn : s.length ≤ n)
    (h : ∀ t ∈ tokensFrom n i s, t.2 ≠ .unknown) : Indexed s := by
  induction n generalizing i s with
  | zero =>
    obtain rfl := List.length_eq_zero_iff.1 (Nat.le_zero.1 hn)
    exact .nil
  | succ n ih =>
    cases s with
    | nil => exact .nil
    | cons c s =>
      rw [List.length_cons] at hn
      rw [tokensFrom] at h
      split at h
      · next hgap =>
        refine .char ?_ ?_ (ih (by omega) h)
        · rintro rfl
          exact absurd hgap (by decide)
        · rintro rfl
          exact absurd hgap (by decide)
      · have hlen := nextToken_length c s
        have hfirst := h _ List.mem_cons_self
        have hrest : Indexed (nextToken c s).2 := ih (by omega) fun t ht ↦ h t (List.mem_cons_of_mem _ ht)
        exact indexed_nextToken ⟨hfirst, hrest⟩

theorem known_of_assemble {fail : ℕ → PathCause → PathError} {size : ℕ} {done : List Step} {link : Link}
    {ts : List (ℕ × Token)} {p : Path} (h : assemble fail size done link ts = .ok p) :
    ∀ t ∈ ts, t.2 ≠ .unknown := by
  induction ts generalizing done link with
  | nil => simp
  | cons t ts ih =>
    obtain ⟨i, t⟩ := t
    have hknown : t ≠ .unknown := by
      rintro rfl
      simp [assemble] at h
    have hrest : ∀ u ∈ ts, u.2 ≠ .unknown := by
      rcases assemble_cons h with ⟨-, hread⟩ | ⟨s, b, -, hread⟩
      · exact ih hread
      · exact ih hread
    exact List.forall_mem_cons.2 ⟨hknown, hrest⟩

/-- The brackets of a path that is read stand around indices. -/
theorem indexed_of_parse {text : String} {p : Path} (h : parse text = .ok p) : Indexed (Text.trim text.toList) := by
  simp only [parse] at h
  split at h
  · next hdot =>
    rw [hdot]
    exact .char (by decide) (by decide) .nil
  · exact indexed_tokensFrom le_rfl (known_of_assemble h)

end Path

theorem Command.source?_variable {c : Command} {key text : String} {p : Path} (hbare : c.param? key = none)
    (hmarked : c.param? ("$" ++ key) = some (.str text)) (hp : Path.parseVariable text = .ok p) :
    c.source? key = .ok (some (.ofVariable p)) := by
  rw [source?, hbare, hmarked]
  have htext : pathText ("$" ++ key) (.str text) = .ok text := rfl
  simp [htext, hp, liftPath, bind, Except.bind]

namespace Delimiters

open Payload

variable {m : Char} {t : List Char}

/-- A mark and a path between the default delimiters are one marker, and what is read from it is one insertion of
the path under the mark. -/
structure Reaches (m : Char) (path : List Char) : Prop where
  marker : Delimiters.default.payload? (Delimiters.default.enclose (m :: path)) = some (m :: path)
  command : ∃ span?, Payload.read (m :: path) =
    .ok [⟨insertion, [(String.singleton m ++ "value", .str (String.ofList path))], span?⟩]

theorem reaches_iff (hm : isMark m = true) (htrim : Text.trim t = t) (hne : t ≠ []) (ht : Indexed t) :
    Reaches m t ↔ Contained t := by
  have hmark : (m ≠ '"' ∧ m ≠ '\'') ∧ (m ≠ '[' ∧ m ≠ ']') ∧ m ≠ '\x7b' ∧ m ≠ '\x7d' := by
    rcases isMark_iff.1 hm with rfl | rfl <;> decide
  obtain ⟨hquote, ⟨hopen, hclose⟩, hbrace⟩ := hmark
  have hagrees : Agrees .outside 0 (m :: t) := agrees_of_indexed (.char hopen hclose ht) trivial
  have hafter : Quoting.outside.after (m :: t) = Quoting.outside.after t := after_outside (p := [m]) (by simpa) t
  rw [Agrees, hafter, unquoted_outside hquote, matched_other hbrace.1 hbrace.2] at hagrees
  constructor
  · rintro ⟨hmarker, hcommand⟩
    rw [payload?_enclose_iff proper_default] at hmarker
    obtain ⟨hquotes, hbraces⟩ := hagrees.1 hmarker
    exact ⟨hquotes, (read_mark_iff hm htrim hne).1 hcommand, hbraces⟩
  · rintro ⟨hquotes, hsemicolon, hbraces⟩
    refine ⟨?_, (read_mark_iff hm htrim hne).2 hsemicolon⟩
    rw [payload?_enclose_iff proper_default]
    exact hagrees.2 ⟨hquotes, hbraces⟩

/-- A path in its short form is found and read as it is written exactly when quotes in it are closed, and outside
of them braces pair up and no semicolon stands. So is a variable's name, and what is inserted is the variable.
Texts without quotes, braces and semicolons are all of this kind. -/
theorem shortForm_iff_contained (text : String) :
    (Text.trim text.toList = text.toList → text ≠ "" → (∃ p, Path.parse text = .ok p) →
      (Reaches '@' text.toList ↔ Contained text.toList)) ∧
    (∀ (scope scope' : Scope) (value : Datum), scope.push text value = .ok scope' →
      (Reaches '$' text.toList ↔ Contained text.toList) ∧
      ∀ span?, Command.source? ⟨insertion, [("$value", .str text)], span?⟩ "value" =
        .ok (some (.ofVariable ⟨[.variableName text]⟩))) ∧
    ((∀ c ∈ text.toList, c ∉ ['"', '\'', '\x7b', '\x7d', ';']) → Contained text.toList) := by
  refine ⟨?_, ?_, ?_⟩
  · rintro htrim hne ⟨p, hp⟩
    have hindexed := Path.indexed_of_parse hp
    rw [htrim] at hindexed
    exact reaches_iff rfl htrim (by simpa using hne) hindexed
  · intro scope scope' value hpush
    have hname := (Scope.push_eq_ok.1 hpush).1
    obtain ⟨hne, hchars⟩ := Path.chars_of_isName hname
    have hindexed : Indexed (text.toList ++ []) :=
      .append (fun c hc ↦ Path.isNameChar_bracket (hchars c hc)) .nil
    rw [List.append_nil] at hindexed
    refine ⟨reaches_iff rfl (Path.trim_of_isName hname) hne hindexed, fun span? ↦ ?_⟩
    exact Command.source?_variable rfl rfl (Path.parseVariable_of_isName hname)
  · intro h
    simp only [List.mem_cons, List.not_mem_nil, or_false, not_or] at h
    have hquotes : ∀ c ∈ text.toList, c ≠ '"' ∧ c ≠ '\'' := fun c hc ↦ ⟨(h c hc).1, (h c hc).2.1⟩
    have hbraces : ∀ c ∈ text.toList, c ≠ '\x7b' ∧ c ≠ '\x7d' := fun c hc ↦ ⟨(h c hc).2.2.1, (h c hc).2.2.2.1⟩
    have hafter := after_outside hquotes []
    have hall := unquoted_append hquotes []
    rw [List.append_nil] at hafter hall
    refine ⟨hafter, ?_, ?_⟩
    · rw [hall, unquoted, List.append_nil]
      intro hmem
      exact (h ';' hmem).2.2.2.2 rfl
    · rw [hall, unquoted, matched_append hbraces]
      exact matched_nil.2 rfl

/-- Quotes and braces that are closed in a path do no harm, and an apostrophe in a name does. -/
theorem shortForm_iff_contained_apostrophe :
    (∃ p, Path.parse "orders[0].'x;y\x7d'.\x7bn\x7d" = .ok p) ∧ Reaches '@' "orders[0].'x;y\x7d'.\x7bn\x7d".toList ∧
    (∃ scope', Scope.empty.push "it's" .null = .ok scope') ∧ ¬Reaches '$' "it's".toList := by
  have hparse : ∃ p, Path.parse "orders[0].'x;y\x7d'.\x7bn\x7d" = .ok p := except_toBool.1 (by decide +kernel)
  have hcontained : Contained "orders[0].'x;y\x7d'.\x7bn\x7d".toList :=
    ⟨by decide +kernel, by decide +kernel, by decide +kernel, by decide +kernel⟩
  have hpush : Scope.empty.push "it's" .null = .ok ⟨Scope.empty.bindings.put "it's" [.null]⟩ :=
    Scope.push_eq_ok.2 ⟨by decide +kernel, rfl⟩
  have hopen : ¬Contained "it's".toList := fun h ↦ absurd h.quotes (by decide +kernel)
  refine ⟨hparse, ?_, ⟨_, hpush⟩, ?_⟩
  · exact ((shortForm_iff_contained _).1 (by decide +kernel) (by decide) hparse).2 hcontained
  · rw [((shortForm_iff_contained _).2.1 _ _ _ hpush).1]
    exact hopen

end Delimiters

end Stencil
