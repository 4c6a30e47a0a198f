import Stencil.Proofs.Payload.Value
import Stencil.Proofs.Text.Trim
import Mathlib.Data.List.TakeWhile
/-!
The grammar of commands over their tokens: a word, and entries that nest. Reading accepts exactly what
the grammar derives and gives what the derivation says. Soundness follows the reader step by step;
completeness follows the derivation, and shows on the way that the bound on the steps is never met.
-/

namespace Stencil.Payload

/-- A string literal of data text with its quotes, and its string. -/
def DoubleText (raw : List Char) (s : String) : Prop := ∃ b, raw = '"' :: (b ++ ['"']) ∧ Json.Denotes b s.toList

def wholeValue (raw : List Char) : ℤ :=
  if (splitSign raw).1 then -(digitsValue (splitSign raw).2 : ℤ) else digitsValue (splitSign raw).2

/-- The numbers. A whole number that 64 signed bits cannot hold counts as a fraction. -/
inductive NumberText : List Char → Json → Prop where
  | whole {raw} : isWhole raw = true ∧ Json.fitsInt (wholeValue raw) = true → NumberText raw (.int (wholeValue raw))
  | float {raw} : ¬ (isWhole raw = true ∧ Json.fitsInt (wholeValue raw) = true) →
      (decimalValue raw).isFinite = true → NumberText raw (.float (decimalValue raw))

namespace Grammar

inductive Key : Token → String → Prop where
  | ident {s} : Key (.ident s) (String.ofList s)
  | double {raw s} : DoubleText raw s → Key (.double raw) s
  | single {raw} : Key (.single raw) (singleText raw)
  | yes : Key .yes "true"
  | no : Key .no "false"
  | null : Key .null "null"

mutual

inductive Value : List Token → Json → Prop where
  | yes : Value [.yes] (.bool true)
  | no : Value [.no] (.bool false)
  | null : Value [.null] .null
  | ident {s} : Value [.ident s] (.str (String.ofList s))
  | double {raw s} : DoubleText raw s → Value [.double raw] (.str s)
  | single {raw} : Value [.single raw] (.str (singleText raw))
  | number {raw v} : NumberText raw v → Value [.number raw] v
  | list {ts vs} : Items ts vs → Value (.openBracket :: (ts ++ [.closeBracket])) (.arr vs)
  | object {ts ps es} : Pairs ts ps → Entries.Gathers ps es → Value (.openBrace :: (ts ++ [.closeBrace])) (.obj es)

/-- Items with commas between them; one more may stand behind the last. -/
inductive Items : List Token → List Json → Prop where
  | nil : Items [] []
  | last {ts v} : Value ts v → Items ts [v]
  | more {ts us v vs} : Value ts v → Items us vs → Items (ts ++ .comma :: us) (v :: vs)

/-- Entries with commas between them; one more may stand behind the last. -/
inductive Pairs : List Token → List (String × Json) → Prop where
  | nil : Pairs [] []
  | last {t k ts v} : Key t k → Value ts v → Pairs (t :: .colon :: ts) [(k, v)]
  | more {t k ts us v ps} : Key t k → Value ts v → Pairs us ps →
      Pairs ((t :: .colon :: ts) ++ .comma :: us) ((k, v) :: ps)

end

end Grammar

/-! ### Literals -/

theorem readEnd_iff {v s : String} {r : List Char} :
    Json.readEnd v r = .ok s ↔ v = s ∧ ∀ c ∈ r, Json.isGap c = true := by
  have hall : Json.skipGap r = [] ↔ ∀ c ∈ r, Json.isGap c = true := List.dropWhile_eq_nil_iff
  rw [← hall, Json.readEnd]
  split
  · next hnil => simp [hnil]
  · next hne => simpa using fun _ ↦ hne

theorem doubleText_eq {raw : List Char} {span : Span} {s : String} : doubleText raw span = .ok s ↔
    ∃ r, Json.readString (raw.drop 1) = .ok (s, r) ∧ ∀ c ∈ r, Json.isGap c = true := by
  rw [doubleText]
  dsimp only
  constructor
  · intro h
    split at h
    · next hread =>
      obtain rfl := Except.ok.inj h
      obtain ⟨⟨t, r⟩, hstring, hend⟩ := except_bind_eq_ok.1 hread
      obtain ⟨rfl, hgap⟩ := readEnd_iff.1 hend
      exact ⟨r, hstring, hgap⟩
    · contradiction
  · rintro ⟨r, hstring, hgap⟩
    rw [hstring]
    simp only [bind, Except.bind, readEnd_iff.2 ⟨rfl, hgap⟩]

theorem doubleText_iff {raw : List Char} (h : IsString '"' raw) {span : Span} {s : String} :
    doubleText raw span = .ok s ↔ DoubleText raw s := by
  obtain ⟨b, rfl, -⟩ := h
  rw [doubleText_eq, List.drop_one, List.tail_cons]
  constructor
  · rintro ⟨r, hstring, hgap⟩
    obtain ⟨b', hb, hdenotes⟩ := Json.readString_iff.1 hstring
    -- a quote is no blank, so the last character is the one that closes the literal
    rcases List.eq_nil_or_concat r with rfl | ⟨r, last, rfl⟩
    · rw [List.append_left_inj] at hb
      exact ⟨b, rfl, hb ▸ hdenotes⟩
    · rw [List.concat_eq_append, ← List.cons_append, ← List.append_assoc] at hb
      obtain ⟨-, hlast⟩ := List.append_inj' hb rfl
      obtain ⟨rfl, -⟩ := List.cons.inj hlast
      have hquote : Json.isGap '"' = true := hgap '"' (by simp)
      contradiction
  · rintro ⟨b', hb, hdenotes⟩
    obtain ⟨-, hb⟩ := List.cons.inj hb
    rw [hb]
    exact ⟨[], Json.readString_iff.2 ⟨b', rfl, hdenotes⟩, by simp⟩

theorem numberValue_iff {raw : List Char} {span : Span} {v : Json} :
    numberValue raw span = .ok v ↔ NumberText raw v := by
  have heq : numberValue raw span = if (isWhole raw && Json.fitsInt (wholeValue raw)) = true then
      .ok (.int (wholeValue raw)) else if (decimalValue raw).isFinite = true then .ok (.float (decimalValue raw))
        else .error (.invalid span (.badNumber (String.ofList raw))) := rfl
  rw [heq]
  constructor
  · intro h
    split_ifs at h with hwhole hfinite
    · obtain rfl := Except.ok.inj h
      exact .whole (Bool.and_eq_true_iff.1 hwhole)
    · obtain rfl := Except.ok.inj h
      exact .float (fun hboth ↦ hwhole (Bool.and_eq_true_iff.2 hboth)) hfinite
  · rintro (hwhole | ⟨hwhole, hfinite⟩)
    · rw [if_pos (Bool.and_eq_true_iff.2 hwhole)]
    · rw [if_neg fun hboth ↦ hwhole (Bool.and_eq_true_iff.1 hboth), if_pos hfinite]

/-! ### What is read is derived -/

/-- Tokens as lexing gives them. -/
def Lexical (ls : List Lexed) : Prop := ∀ l ∈ ls, ∃ w, l.token.Looks w

theorem lexical_of_lexed {i : ℕ} {s : List Char} {ls : List Lexed} (h : lexed i s = .ok ls) : Lexical ls := by
  intro l hl
  exact (spelling_of_lexed h).looks _ (List.mem_map_of_mem hl)

theorem Lexical.tail {l : Lexed} {ls : List Lexed} (h : Lexical (l :: ls)) : Lexical ls :=
  fun m hm ↦ h m (List.mem_cons_of_mem _ hm)

theorem Lexical.right {us ls : List Lexed} (h : Lexical (us ++ ls)) : Lexical ls :=
  fun m hm ↦ h m (List.mem_append_right _ hm)

theorem Lexical.isString {l : Lexed} {ls : List Lexed} (h : Lexical (l :: ls)) {raw : List Char}
    (hl : l.token = .double raw) : IsString '"' raw := by
  obtain ⟨w, hw⟩ := h l (List.mem_cons_self ..)
  rw [hl] at hw
  obtain ⟨rfl, hstring⟩ := hw
  exact hstring

theorem keyText_sound {stop : ℕ} {ls rest : List Lexed} {key : String} (hlex : Lexical ls)
    (h : keyText stop ls = .ok (key, rest)) : ∃ l, ls = l :: rest ∧ Grammar.Key l.token key := by
  cases ls with
  | nil => simp [keyText] at h
  | cons l ls =>
    rw [keyText] at h
    split at h
    case h_2 raw hl =>
      obtain ⟨s, hs, hpair⟩ := except_map_eq_ok.1 h
      obtain ⟨rfl, rfl⟩ := Prod.mk.inj hpair
      refine ⟨l, rfl, ?_⟩
      rw [hl]
      exact .double ((doubleText_iff (hlex.isString hl)).1 hs)
    case h_7 => contradiction
    all_goals
      next hl =>
      obtain ⟨rfl, rfl⟩ := Prod.mk.inj (Except.ok.inj h)
      refine ⟨l, rfl, ?_⟩
      rw [hl]
      constructor

theorem pastColon_sound {stop : ℕ} {ls rest : List Lexed} (h : pastColon stop ls = .ok rest) :
    ∃ l, ls = l :: rest ∧ l.token = .colon := by
  cases ls with
  | nil => simp [pastColon] at h
  | cons l ls =>
    rw [pastColon] at h
    split at h
    · next hl => exact ⟨l, by rw [Except.ok.inj h], hl⟩
    · contradiction

theorem pastClosing_sound {nested : Bool} {ls rest : List Lexed} (h : pastClosing nested ls = some rest) :
    ∃ us, ls = us ++ rest ∧ us.map Lexed.token = closing nested ∧ (nested = false → rest = []) := by
  cases ls with
  | nil =>
    cases nested with
    | true => simp [pastClosing] at h
    | false =>
      obtain rfl := Option.some.inj h
      exact ⟨[], rfl, rfl, fun _ ↦ rfl⟩
  | cons l ls =>
    cases nested with
    | true =>
      rw [pastClosing] at h
      split at h
      · next hl =>
        obtain rfl := Option.some.inj h
        exact ⟨[l], rfl, by simpa [closing] using hl, by simp⟩
      · contradiction
    | false => simp [pastClosing] at h

/-- What the readers give within `n` steps has a derivation. -/
structure Derives (stop n : ℕ) : Prop where
  value : ∀ {ls rest v}, Lexical ls → readValue stop n ls = .ok (v, rest) →
    ∃ us, ls = us ++ rest ∧ Grammar.Value (us.map Lexed.token) v
  items : ∀ {ls rest vs}, Lexical ls → readItems stop n ls = .ok (vs, rest) →
    ∃ us ts, ls = us ++ rest ∧ us.map Lexed.token = ts ++ [.closeBracket] ∧ Grammar.Items ts vs
  entries : ∀ {nested es es' ls rest}, Lexical ls → readEntries stop nested n es ls = .ok (es', rest) →
    ∃ us ts ps, ls = us ++ rest ∧ us.map Lexed.token = ts ++ closing nested ∧ Grammar.Pairs ts ps ∧
      es' = es.putAll ps ∧ (nested = false → rest = [])

variable {stop n : ℕ} {ls rest : List Lexed}

theorem readValue_sound (ih : Derives stop n) {v : Json} (hlex : Lexical ls)
    (h : readValue stop (n + 1) ls = .ok (v, rest)) :
    ∃ us, ls = us ++ rest ∧ Grammar.Value (us.map Lexed.token) v := by
  cases ls with
  | nil => simp [readValue] at h
  | cons l ls =>
    rw [readValue] at h
    split at h
    case h_4 raw hl =>
      obtain ⟨s, hs, hpair⟩ := except_map_eq_ok.1 h
      obtain ⟨rfl, rfl⟩ := Prod.mk.inj hpair
      refine ⟨[l], rfl, ?_⟩
      rw [List.map_singleton, hl]
      exact .double ((doubleText_iff (hlex.isString hl)).1 hs)
    case h_7 raw hl =>
      obtain ⟨u, hu, hpair⟩ := except_map_eq_ok.1 h
      obtain ⟨rfl, rfl⟩ := Prod.mk.inj hpair
      refine ⟨[l], rfl, ?_⟩
      rw [List.map_singleton, hl]
      exact .number (numberValue_iff.1 hu)
    case h_8 hl =>
      obtain ⟨⟨es, rest'⟩, hentries, hpair⟩ := except_bind_eq_ok.1 h
      obtain ⟨rfl, rfl⟩ := Prod.mk.inj (Except.ok.inj hpair)
      obtain ⟨us, ts, ps, rfl, hts, hps, rfl, -⟩ := ih.entries hlex.tail hentries
      refine ⟨l :: us, rfl, ?_⟩
      rw [List.map_cons, hl, hts]
      exact .object hps (Entries.gathers_ofPairs ps)
    case h_9 hl =>
      obtain ⟨⟨vs, rest'⟩, hitems, hpair⟩ := except_bind_eq_ok.1 h
      obtain ⟨rfl, rfl⟩ := Prod.mk.inj (Except.ok.inj hpair)
      obtain ⟨us, ts, rfl, hts, hvs⟩ := ih.items hlex.tail hitems
      refine ⟨l :: us, rfl, ?_⟩
      rw [List.map_cons, hl, hts]
      exact .list hvs
    case h_10 => contradiction
    all_goals
      next hl =>
      obtain ⟨rfl, rfl⟩ := Prod.mk.inj (Except.ok.inj h)
      refine ⟨[l], rfl, ?_⟩
      rw [List.map_singleton, hl]
      constructor

theorem readItems_sound (ih : Derives stop n) {vs : List Json} (hlex : Lexical ls)
    (h : readItems stop (n + 1) ls = .ok (vs, rest)) :
    ∃ us ts, ls = us ++ rest ∧ us.map Lexed.token = ts ++ [.closeBracket] ∧ Grammar.Items ts vs := by
  rw [readItems.eq_def] at h
  dsimp only at h
  split at h
  · obtain ⟨rfl, rfl⟩ := Prod.mk.inj (Except.ok.inj h)
    exact ⟨[_], [], rfl, rfl, .nil⟩
  obtain ⟨⟨v, ls'⟩, hvalue, hafter⟩ := except_bind_eq_ok.1 h
  obtain ⟨us, rfl, hv⟩ := ih.value hlex hvalue
  dsimp only at hafter
  split at hafter
  · next text start _ _ =>
    obtain ⟨⟨ws, rest'⟩, hitems, hpair⟩ := except_bind_eq_ok.1 hafter
    obtain ⟨rfl, rfl⟩ := Prod.mk.inj (Except.ok.inj hpair)
    obtain ⟨us', ts, rfl, hts, hws⟩ := ih.items hlex.right.tail hitems
    exact ⟨us ++ ⟨.comma, text, start⟩ :: us', us.map Lexed.token ++ .comma :: ts, by simp, by simp [hts],
      .more hv hws⟩
  · next text start _ _ =>
    obtain ⟨rfl, rfl⟩ := Prod.mk.inj (Except.ok.inj hafter)
    exact ⟨us ++ [⟨.closeBracket, text, start⟩], us.map Lexed.token, by simp, by simp, .last hv⟩
  · contradiction

theorem readEntries_sound (ih : Derives stop n) {nested : Bool} {es es' : Entries Json} (hlex : Lexical ls)
    (h : readEntries stop nested (n + 1) es ls = .ok (es', rest)) :
    ∃ us ts ps, ls = us ++ rest ∧ us.map Lexed.token = ts ++ closing nested ∧ Grammar.Pairs ts ps ∧
      es' = es.putAll ps ∧ (nested = false → rest = []) := by
  rw [readEntries] at h
  split at h
  · next hclosing =>
    obtain ⟨rfl, rfl⟩ := Prod.mk.inj (Except.ok.inj h)
    obtain ⟨us, rfl, hus, hrest⟩ := pastClosing_sound hclosing
    exact ⟨us, [], [], rfl, hus, .nil, rfl, hrest⟩
  obtain ⟨⟨key, ls₁⟩, hkey, hentry⟩ := except_bind_eq_ok.1 h
  obtain ⟨ls₂, hcolon, hbound⟩ := except_bind_eq_ok.1 hentry
  obtain ⟨⟨v, ls₃⟩, hvalue, hafter⟩ := except_bind_eq_ok.1 hbound
  obtain ⟨l, rfl, hk⟩ := keyText_sound hlex hkey
  obtain ⟨m, rfl, hm⟩ := pastColon_sound hcolon
  obtain ⟨us, rfl, hv⟩ := ih.value hlex.tail.tail hvalue
  dsimp only at hafter
  split at hafter
  · next text start _ _ =>
    obtain ⟨us', ts, ps, rfl, hts, hps, rfl, hrest⟩ := ih.entries hlex.tail.tail.right.tail hafter
    exact ⟨l :: m :: us ++ ⟨.comma, text, start⟩ :: us', (l.token :: .colon :: us.map Lexed.token) ++ .comma :: ts, (key, v) :: ps,
      by simp, by simp [hm, hts], .more hk hv hps, rfl, hrest⟩
  · split at hafter
    · next hclosing =>
      obtain ⟨rfl, rfl⟩ := Prod.mk.inj (Except.ok.inj hafter)
      obtain ⟨us', rfl, hus', hrest⟩ := pastClosing_sound hclosing
      exact ⟨l :: m :: us ++ us', l.token :: .colon :: us.map Lexed.token, [(key, v)],
        by simp, by simp [hm, hus'], .last hk hv, rfl, hrest⟩
    · contradiction

theorem derives (stop : ℕ) : ∀ n, Derives stop n
  | 0 => ⟨fun _ h ↦ by simp [readValue] at h, fun _ h ↦ by simp [readItems] at h, fun _ h ↦ by simp [readEntries] at h⟩
  | n + 1 => ⟨readValue_sound (derives stop n), readItems_sound (derives stop n), readEntries_sound (derives stop n)⟩

/-! ### What is derived is read -/

theorem DoubleText.doubleText {raw : List Char} {s : String} (h : DoubleText raw s) (span : Span) :
    Payload.doubleText raw span = .ok s := by
  obtain ⟨b, rfl, hdenotes⟩ := h
  exact doubleText_eq.2 ⟨[], Json.readString_iff.2 ⟨b, rfl, hdenotes⟩, by simp⟩

namespace Grammar

theorem Key.readsAs {t : Token} {key : String} (h : Key t key) : KeyReadsAs t key := by
  refine ⟨by rintro rfl; contradiction, fun stop l ts hl ↦ ?_⟩
  subst hl
  rw [keyText]
  generalize l.token = t at h
  cases h with
  | double htext => simp only [htext.doubleText, Except.map]
  | _ => rfl

mutual

theorem Value.readsAs : ∀ {ts : List Token} {v : Json}, Value ts v → ReadsAs ts v
  | _, _, .yes => readsAs_one fun stop n l ts hl ↦ by rw [readValue, hl]
  | _, _, .no => readsAs_one fun stop n l ts hl ↦ by rw [readValue, hl]
  | _, _, .null => readsAs_one fun stop n l ts hl ↦ by rw [readValue, hl]
  | _, _, .ident => readsAs_one fun stop n l ts hl ↦ by rw [readValue, hl]
  | _, _, .single => readsAs_one fun stop n l ts hl ↦ by rw [readValue, hl]
  | _, _, .double htext => readsAs_one fun stop n l ts hl ↦ by
    rw [readValue, hl]
    simp only [htext.doubleText, Except.map]
  | _, _, .number hnumber => readsAs_number fun _ ↦ numberValue_iff.2 hnumber
  | _, _, .list hitems => .bracket hitems.readsAs
  | _, _, .object hpairs hes => by
    obtain rfl := Entries.gathers_iff.1 hes
    exact .brace (hpairs.readsAs true)

theorem Items.readsAs : ∀ {ts : List Token} {vs : List Json}, Items ts vs → ItemsReadAs (ts ++ [.closeBracket]) vs
  | _, _, .nil => itemsReadAs_nil
  | _, _, .last hvalue => hvalue.readsAs.last
  | _, _, .more hvalue hitems => by
    have hmore := hvalue.readsAs.more hitems.readsAs
    simpa using hmore

theorem Pairs.readsAs (nested : Bool) : ∀ {ts : List Token} {ps : List (String × Json)}, Pairs ts ps →
    EntriesReadAs nested (ts ++ closing nested) ps
  | _, _, .nil => entriesReadAs_nil nested
  | _, _, .last hkey hvalue => .last hkey.readsAs hvalue.readsAs
  | _, _, .more hkey hvalue hpairs => by
    have hmore := EntriesReadAs.more hkey.readsAs hvalue.readsAs (hpairs.readsAs nested)
    simpa using hmore

end

end Grammar

/-! ### Commands -/

theorem namedCommand_iff {s : List Char} {c : Command} : namedCommand s = .ok c ↔ ∃ first rest name ps,
    tokensOf (lexemes s) = .ok (first :: rest) ∧ first.token = .ident name ∧
      (∀ m ∈ name.head?, isMark m = false) ∧ Grammar.Pairs (rest.map Lexed.token) ps ∧
        c.name = String.ofList name ∧ Entries.Gathers ps c.params ∧ c.span? = some ⟨first.start, Text.width s⟩ := by
  constructor
  · intro h
    obtain ⟨ts, hts, hcommand⟩ := except_bind_eq_ok.1 h
    split at hcommand
    · next name text start rest =>
      split at hcommand
      · next hmark =>
        obtain ⟨⟨params, rest'⟩, hparams, hc⟩ := except_bind_eq_ok.1 hcommand
        obtain rfl := Except.ok.inj hc
        have hlex : Lexical (⟨.ident name, text, start⟩ :: rest) := lexical_of_lexed (i := 0) hts
        obtain ⟨us, ts, ps, hrest, hus, hps, rfl, hnil⟩ := (derives _ _).entries hlex.tail hparams
        rw [hnil rfl, List.append_nil] at hrest
        subst hrest
        refine ⟨_, rest, name, ps, hts, rfl, ?_, ?_, rfl, ?_, rfl⟩
        · intro m hm
          rw [hm] at hmark
          simpa using hmark
        · rw [hus]
          simpa [closing] using hps
        · exact Entries.gathers_ofPairs ps
      · contradiction
    · contradiction
  · rintro ⟨⟨_, text, start⟩, rest, name, ps, hts, rfl, hmark, hps, hname, hparams, hspan⟩
    obtain ⟨cname, cparams, cspan⟩ := c
    dsimp only at hname hparams hspan
    subst hname hspan
    obtain rfl := Entries.gathers_iff.1 hparams
    have hall : (name.head?.all fun c ↦ !isMark c) = true := by
      cases hhead : name.head? with
      | none => rfl
      | some m => simp [hmark m hhead]
    have hread := hps.readsAs false (endOf (⟨.ident name, text, start⟩ :: rest)) (2 * (rest.length + 1)) [] rest []
      (fun _ ↦ rfl) (by simp [closing]) (by simp)
    rw [List.append_nil, ← Entries.ofPairs_eq] at hread
    simp only [namedCommand, hts, bind, Except.bind, hall, if_true, List.length_cons, hread]

theorem shortForm?_none {s : List Char} (h : ∀ c ∈ s.head?, isMark c = false) : shortForm? s = none := by
  unfold shortForm?
  split
  · simp [isMark] at h
  · simp [isMark] at h
  · rfl

/-- A text without a mark in front is read as a command if and only if its tokens are a word and entries
of the grammar. The command then holds what the entries say: each key where it first comes, with the value
it comes with last. -/
theorem readCommand_iff {s : List Char} (hmark : ∀ c ∈ (Text.trim s).head?, isMark c = false) {c : Command} :
    readCommand s = .ok c ↔ ∃ first rest name ps,
      tokensOf (lexemes (Text.trim s)) = .ok (first :: rest) ∧ first.token = .ident name ∧
        (∀ m ∈ name.head?, isMark m = false) ∧ Grammar.Pairs (rest.map Lexed.token) ps ∧
          c.name = String.ofList name ∧ c.params.keys = (ps.map Prod.fst).eraseDups ∧
            (∀ key, c.param? key = ps.reverse.lookup key) ∧
              c.span? = some ⟨first.start, Text.width (Text.trim s)⟩ := by
  rw [readCommand, shortForm?_none hmark]
  dsimp only
  rw [namedCommand_iff]
  constructor
  · rintro ⟨first, rest, name, ps, hts, hname, hunmarked, hps, hc, hparams, hspan⟩
    exact ⟨first, rest, name, ps, hts, hname, hunmarked, hps, hc, hparams.keys, hparams.values, hspan⟩
  · rintro ⟨first, rest, name, ps, hts, hname, hunmarked, hps, hc, hkeys, hvalues, hspan⟩
    exact ⟨first, rest, name, ps, hts, hname, hunmarked, hps, hc, ⟨hkeys, hvalues⟩, hspan⟩

theorem unmarked_of_head {s : List Char} {x : Char} (hs : s.head? = some x) (hx : isMark x = false) :
    ∀ c ∈ s.head?, isMark c = false := by
  intro c hc
  rw [hs] at hc
  rwa [← Option.mem_some.1 hc]

/-- A list and entries with trailing commas, a word for a value as a key, and a key that comes twice. -/
theorem readCommand_lenient :
    (∀ c ∈ (Text.trim "If a:[x, 2,], true:\x7b\x7d, \"a\":null,".toList).head?, isMark c = false) ∧
      ∃ span?, readCommand "If a:[x, 2,], true:\x7b\x7d, \"a\":null,".toList =
        .ok ⟨"If", [("a", .null), ("true", .obj [])], span?⟩ := by
  have htrim : Text.trim "If a:[x, 2,], true:\x7b\x7d, \"a\":null,".toList =
      "If a:[x, 2,], true:\x7b\x7d, \"a\":null,".toList := by decide +kernel
  have hmark : ∀ c ∈ (Text.trim "If a:[x, 2,], true:\x7b\x7d, \"a\":null,".toList).head?, isMark c = false := by
    rw [htrim]
    exact unmarked_of_head (x := 'I') (by decide +kernel) rfl
  have hlexed : (tokensOf (lexemes "If a:[x, 2,], true:\x7b\x7d, \"a\":null,".toList)).map (fun ls ↦ ls.map Lexed.token) =
      .ok [.ident "If".toList, .ident ['a'], .colon, .openBracket, .ident ['x'], .comma, .number ['2'], .comma,
        .closeBracket, .comma, .yes, .colon, .openBrace, .closeBrace, .comma, .double "\"a\"".toList, .colon, .null,
        .comma] := by decide +kernel
  have hword : Grammar.Value [.ident ['x']] (.str "x") := .ident
  have htwo : Grammar.Value [.number ['2']] (.int 2) := .number (.whole (by decide))
  have hlist : Grammar.Value [.openBracket, .ident ['x'], .comma, .number ['2'], .comma, .closeBracket]
      (.arr [.str "x", .int 2]) := .list (.more hword (.more htwo .nil))
  have hobject : Grammar.Value [.openBrace, .closeBrace] (.obj []) := .object .nil (Entries.gathers_ofPairs [])
  have hnull : Grammar.Value [.null] .null := .null
  have hquoted : DoubleText "\"a\"".toList "a" := ⟨['a'], rfl, .plain (by decide) (by decide) (by decide) .nil⟩
  have hpairs : Grammar.Pairs [.ident ['a'], .colon, .openBracket, .ident ['x'], .comma, .number ['2'], .comma,
      .closeBracket, .comma, .yes, .colon, .openBrace, .closeBrace, .comma, .double "\"a\"".toList, .colon, .null,
      .comma] [("a", .arr [.str "x", .int 2]), ("true", .obj []), ("a", .null)] :=
    .more .ident hlist (.more .yes hobject (.more (.double hquoted) hnull .nil))
  obtain ⟨ls, hls, htokens⟩ := except_map_eq_ok.1 hlexed
  obtain ⟨first, rest, rfl, hfirst, hrest⟩ := split_token htokens
  have hgathers := Entries.gathers_ofPairs [("a", Json.arr [.str "x", .int 2]), ("true", .obj []), ("a", .null)]
  refine ⟨hmark, some ⟨first.start, _⟩, (readCommand_iff hmark).2 ⟨first, rest, "If".toList, _, ?_, hfirst,
    unmarked_of_head (x := 'I') (by decide +kernel) rfl, hrest ▸ hpairs, rfl, hgathers.keys, hgathers.values, rfl⟩⟩
  rw [htrim]
  exact hls

end Stencil.Payload
