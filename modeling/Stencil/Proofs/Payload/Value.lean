import Stencil.Payload.Marker
import Stencil.Proofs.Entries
import Stencil.Proofs.Json.StringText
import Stencil.Proofs.Payload.Lexing
import Stencil.Proofs.Payload.Numeral
/-!
Values in payloads read back from their compact text: numbers and strings as tokens of their own,
lists and objects by their items.
-/

namespace Stencil

namespace Json

mutual

/-- Values that payloads can hold: whole numbers of 64 signed bits, finite binary64 numbers, and
objects in which no key comes twice. -/
def Readable : Json → Prop
  | .int n => fitsInt n = true
  | .float x => x.isFinite = true
  | .arr items => ReadableItems items
  | .obj entries => (Entries.keys entries).Nodup ∧ ReadableEntries entries
  | _ => True

def ReadableItems : List Json → Prop
  | [] => True
  | v :: vs => Readable v ∧ ReadableItems vs

def ReadableEntries : List (String × Json) → Prop
  | [] => True
  | (_, v) :: es => Readable v ∧ ReadableEntries es

end

end Json

namespace Payload

theorem quote_eq (s : List Char) : Json.quote s = '"' :: (s.flatMap Json.escape ++ ['"']) := rfl

theorem scan_double (s : List Char) : scan '"' s =
    let (body, _, closed) := stringBody '"' s
    if closed then (some (.double ('"' :: (body ++ ['"']))), body ++ ['"']) else (none, body) := rfl

theorem begins_quote (s r : List Char) : Begins (.double (Json.quote s)) (Json.quote s) r := by
  refine ⟨'"', s.flatMap Json.escape ++ ['"'], rfl, rfl, ?_⟩
  have hbody := stringBody_escaped (by decide) (Json.escaped_flatMap s) r
  rw [scan_double, List.append_assoc, List.singleton_append, hbody]
  rfl

theorem doubleText_quote (s : String) (span : Span) : doubleText (Json.quote s.toList) span = .ok s := by
  have h := Json.readString_quote s.toList []
  rw [String.ofList_toList] at h
  rw [doubleText, quote_eq, List.drop_one, List.tail_cons, h]
  rfl

/-- The key that a token stands for, wherever it stands. -/
def KeyReadsAs (t : Token) (key : String) : Prop :=
  t ≠ .closeBrace ∧ ∀ stop l ts, l.token = t → keyText stop (l :: ts) = .ok (key, ts)

theorem keyReadsAs_quote (key : String) : KeyReadsAs (.double (Json.quote key.toList)) key := by
  refine ⟨by simp, fun stop l ts hl ↦ ?_⟩
  rw [keyText, hl]
  simp only [doubleText_quote, Except.map]

theorem keyReadsAs_ident (s : List Char) : KeyReadsAs (.ident s) (String.ofList s) := by
  refine ⟨by simp, fun stop l ts hl ↦ ?_⟩
  rw [keyText, hl]

/-- The value that tokens stand for, wherever they stand. -/
def ReadsAs (ts : List Token) (v : Json) : Prop :=
  ∀ stop n (ls rest : List Lexed), ls.map Lexed.token = ts → 2 * ls.length ≤ n + 1 →
    readValue stop n (ls ++ rest) = .ok (v, rest)

/-- The items that tokens up to a bracket stand for. -/
def ItemsReadAs (ts : List Token) (vs : List Json) : Prop :=
  ∀ stop n (ls rest : List Lexed), ls.map Lexed.token = ts → 2 * ls.length ≤ n + 1 →
    readItems stop n (ls ++ rest) = .ok (vs, rest)

/-- The pairs that tokens stand for, put behind entries: up to a brace where they are nested, and up
to the end of the text where they are not. -/
def EntriesReadAs (nested : Bool) (ts : List Token) (ps : List (String × Json)) : Prop :=
  ∀ stop n (before : Entries Json) (ls rest : List Lexed), (nested = false → rest = []) →
    ls.map Lexed.token = ts → 2 * ls.length + 1 ≤ n + (if nested then 2 else 0) →
      readEntries stop nested n before (ls ++ rest) = .ok (before.putAll ps, rest)

theorem readsAs_one {t : Token} {v : Json}
    (h : ∀ stop n l ts, l.token = t → readValue stop (n + 1) (l :: ts) = .ok (v, ts)) : ReadsAs [t] v := by
  intro stop n ls rest hls hn
  obtain ⟨l, rfl⟩ : ∃ l, ls = [l] := List.length_eq_one_iff.1 (by simpa using congrArg List.length hls)
  simp only [List.length_singleton] at hn
  obtain ⟨n, rfl⟩ : ∃ k, n = k + 1 := ⟨n - 1, by omega⟩
  exact h stop n l rest (by simpa using hls)

theorem readsAs_number {raw : List Char} {v : Json} (h : ∀ span, numberValue raw span = .ok v) :
    ReadsAs [.number raw] v :=
  readsAs_one fun stop n l ts hl ↦ by
    rw [readValue, hl]
    simp only [h, Except.map]

theorem readsAs_quote (s : String) : ReadsAs [.double (Json.quote s.toList)] (.str s) :=
  readsAs_one fun stop n l ts hl ↦ by
    rw [readValue, hl]
    simp only [doubleText_quote, Except.map]

/-- Splits lexed tokens where their tokens split. -/
theorem split_tokens {ls : List Lexed} {ts ts' : List Token} (h : ls.map Lexed.token = ts ++ ts') :
    ∃ ls₁ ls₂, ls = ls₁ ++ ls₂ ∧ ls₁.map Lexed.token = ts ∧ ls₂.map Lexed.token = ts' :=
  List.map_eq_append_iff.1 h

theorem split_token {ls : List Lexed} {t : Token} {ts : List Token} (h : ls.map Lexed.token = t :: ts) :
    ∃ l ls', ls = l :: ls' ∧ l.token = t ∧ ls'.map Lexed.token = ts :=
  List.map_eq_cons_iff.1 h

theorem ReadsAs.bracket {ts : List Token} {vs : List Json} (h : ItemsReadAs ts vs) :
    ReadsAs (.openBracket :: ts) (.arr vs) := by
  intro stop n ls rest hls hn
  obtain ⟨l, ls, rfl, hl, hts⟩ := split_token hls
  simp only [List.length_cons] at hn
  obtain ⟨n, rfl⟩ : ∃ k, n = k + 1 := ⟨n - 1, by omega⟩
  rw [List.cons_append, readValue, hl]
  simp only [h stop n ls rest hts (by omega), bind, Except.bind]

theorem ReadsAs.brace {ts : List Token} {ps : List (String × Json)} (h : EntriesReadAs true ts ps) :
    ReadsAs (.openBrace :: ts) (.obj (Entries.ofPairs ps)) := by
  intro stop n ls rest hls hn
  obtain ⟨l, ls, rfl, hl, hts⟩ := split_token hls
  simp only [List.length_cons] at hn
  obtain ⟨n, rfl⟩ : ∃ k, n = k + 1 := ⟨n - 1, by omega⟩
  rw [List.cons_append, readValue, hl]
  simp only [h stop n [] ls rest (by simp) hts (by simp; omega), bind, Except.bind, Entries.ofPairs_eq]

theorem itemsReadAs_nil : ItemsReadAs [.closeBracket] [] := by
  intro stop n ls rest hls hn
  obtain ⟨⟨t, s, i⟩, ls, rfl, rfl, hts⟩ := split_token hls
  obtain rfl := List.map_eq_nil_iff.1 hts
  simp only [List.length_singleton] at hn
  obtain ⟨n, rfl⟩ : ∃ k, n = k + 1 := ⟨n - 1, by omega⟩
  rfl

theorem readItems_eq {stop n : ℕ} {ts ts' : List Lexed} {v : Json}
    (h : readValue stop n ts = .ok (v, ts')) : readItems stop (n + 1) ts = (do
      let (v, ts) ← readValue stop n ts
      match ts with
      | ⟨.comma, _, _⟩ :: ts =>
        let (vs, ts) ← readItems stop n ts
        .ok (v :: vs, ts)
      | ⟨.closeBracket, _, _⟩ :: ts => .ok ([v], ts)
      | ts => .error (unexpected stop .closingBracket ts)) := by
  cases ts with
  | nil => rfl
  | cons l ts =>
    obtain ⟨t, s, i⟩ := l
    cases t with
    | closeBracket => cases n <;> simp [readValue] at h
    | _ => rfl

theorem ReadsAs.last {ts : List Token} {v : Json} (h : ReadsAs ts v) :
    ItemsReadAs (ts ++ [.closeBracket]) [v] := by
  intro stop n ls rest hls hn
  obtain ⟨ls, ls', rfl, hts, hls'⟩ := split_tokens hls
  obtain ⟨⟨t, s, i⟩, ls', rfl, rfl, hnil⟩ := split_token hls'
  obtain rfl := List.map_eq_nil_iff.1 hnil
  simp only [List.length_append, List.length_singleton] at hn
  obtain ⟨n, rfl⟩ : ∃ k, n = k + 1 := ⟨n - 1, by omega⟩
  have hv := h stop n ls (⟨.closeBracket, s, i⟩ :: rest) hts (by omega)
  rw [List.append_assoc, List.singleton_append, readItems_eq hv, hv]
  rfl

theorem ReadsAs.more {ts ts' : List Token} {v : Json} {vs : List Json} (h : ReadsAs ts v)
    (h' : ItemsReadAs ts' vs) : ItemsReadAs (ts ++ .comma :: ts') (v :: vs) := by
  intro stop n ls rest hls hn
  obtain ⟨ls, ls', rfl, hts, hls'⟩ := split_tokens hls
  obtain ⟨⟨t, s, i⟩, ls', rfl, rfl, hts'⟩ := split_token hls'
  simp only [List.length_append, List.length_cons] at hn
  obtain ⟨n, rfl⟩ : ∃ k, n = k + 1 := ⟨n - 1, by omega⟩
  have hv := h stop n ls (⟨.comma, s, i⟩ :: (ls' ++ rest)) hts (by omega)
  have hvs := h' stop n ls' rest hts' (by omega)
  rw [List.append_assoc, List.cons_append, readItems_eq hv, hv]
  simp only [bind, Except.bind, hvs]

def closing (nested : Bool) : List Token := if nested then [.closeBrace] else []

theorem pastClosing_closing {nested : Bool} {ls rest : List Lexed} (hrest : nested = false → rest = [])
    (hls : ls.map Lexed.token = closing nested) : pastClosing nested (ls ++ rest) = some rest := by
  cases nested with
  | true =>
    obtain ⟨⟨t, s, i⟩, ls, rfl, rfl, hnil⟩ := split_token hls
    obtain rfl := List.map_eq_nil_iff.1 hnil
    rfl
  | false =>
    obtain rfl := List.map_eq_nil_iff.1 hls
    rw [hrest rfl]
    rfl

theorem entriesReadAs_nil (nested : Bool) : EntriesReadAs nested (closing nested) [] := by
  intro stop n before ls rest hrest hls hn
  have hlen : ls.length = (closing nested).length := by rw [← hls, List.length_map]
  obtain ⟨n, rfl⟩ : ∃ k, n = k + 1 := ⟨n - 1, by cases nested <;> simp [closing] at hlen hn <;> omega⟩
  rw [readEntries, pastClosing_closing hrest hls]
  rfl

def afterEntry (stop n : ℕ) (nested : Bool) (es : Entries Json) :
    List Lexed → Except Error (Entries Json × List Lexed)
  | ⟨.comma, _, _⟩ :: ts => readEntries stop nested n es ts
  | ts => match pastClosing nested ts with
    | some ts => .ok (es, ts)
    | none => .error (unexpected stop .comma ts)

theorem readEntries_eq {stop n : ℕ} {nested : Bool} {es : Entries Json} {ts ts₁ ts₂ ts₃ : List Lexed}
    {key : String} {v : Json} (hclose : pastClosing nested ts = none)
    (hkey : keyText stop ts = .ok (key, ts₁)) (hcolon : pastColon stop ts₁ = .ok ts₂)
    (hval : readValue stop n ts₂ = .ok (v, ts₃)) :
    readEntries stop nested (n + 1) es ts = afterEntry stop n nested (es.put key v) ts₃ := by
  rw [readEntries, hclose]
  simp only [hkey, hcolon, hval, bind, Except.bind]
  rfl

theorem readEntries_entry {stop n : ℕ} {nested : Bool} {before : Entries Json} {t : Token}
    {key : String} {v : Json} {ts : List Token} {ls ls' : List Lexed} (hkey : KeyReadsAs t key)
    (hval : ReadsAs ts v) (hls : ls.map Lexed.token = t :: .colon :: ts) (hn : 2 * ls.length ≤ n + 5) :
    readEntries stop nested (n + 1) before (ls ++ ls') =
      afterEntry stop n nested (before.put key v) ls' := by
  obtain ⟨l, ls, rfl, hl, hls⟩ := split_token hls
  obtain ⟨m, ls, rfl, hm, hls⟩ := split_token hls
  simp only [List.length_cons] at hn
  have hcolon : pastColon stop (m :: (ls ++ ls')) = .ok (ls ++ ls') := by rw [pastColon, if_pos hm]
  refine readEntries_eq ?_ (hkey.2 stop l _ hl) hcolon (hval stop n ls ls' hls (by omega))
  · have hne : (l.token == .closeBrace) = false := by
      rw [hl]
      exact beq_eq_false_iff_ne.2 hkey.1
    rw [List.cons_append, pastClosing, hne, Bool.and_false]
    rfl

theorem EntriesReadAs.last {nested : Bool} {t : Token} {key : String} {ts : List Token} {v : Json}
    (hkey : KeyReadsAs t key) (hval : ReadsAs ts v) :
    EntriesReadAs nested ((t :: .colon :: ts) ++ closing nested) [(key, v)] := by
  intro stop n before ls rest hrest hls hn
  obtain ⟨ls, ls', rfl, hts, hls'⟩ := split_tokens hls
  have hlen : ls.length = ts.length + 2 := by simpa using congrArg List.length hts
  have hlen' : ls'.length = (closing nested).length := by rw [← hls', List.length_map]
  rw [List.length_append, hlen, hlen'] at hn
  obtain ⟨n, rfl⟩ : ∃ k, n = k + 1 := ⟨n - 1, by cases nested <;> simp [closing] at hn <;> omega⟩
  have hfuel : 2 * ls.length ≤ n + 5 := by cases nested <;> simp [closing] at hn <;> omega
  rw [List.append_assoc, readEntries_entry hkey hval hts hfuel]
  have hpast := pastClosing_closing hrest hls'
  cases nested with
  | true =>
    obtain ⟨⟨u, s, i⟩, ls', rfl, rfl, hnil⟩ := split_token hls'
    rw [List.cons_append] at hpast ⊢
    simp only [afterEntry, hpast]
    rfl
  | false =>
    obtain rfl := List.map_eq_nil_iff.1 hls'
    rw [hrest rfl] at hpast ⊢
    rfl

theorem EntriesReadAs.more {nested : Bool} {t : Token} {key : String} {ts ts' : List Token} {v : Json}
    {ps : List (String × Json)} (hkey : KeyReadsAs t key) (hval : ReadsAs ts v)
    (h : EntriesReadAs nested ts' ps) :
    EntriesReadAs nested ((t :: .colon :: ts) ++ .comma :: ts') ((key, v) :: ps) := by
  intro stop n before ls rest hrest hls hn
  obtain ⟨ls, ls', rfl, hts, hls'⟩ := split_tokens hls
  obtain ⟨⟨u, s, i⟩, ls', rfl, rfl, hts'⟩ := split_token hls'
  have hlen : ls.length = ts.length + 2 := by simpa using congrArg List.length hts
  rw [List.length_append, List.length_cons, hlen] at hn
  obtain ⟨n, rfl⟩ : ∃ k, n = k + 1 := ⟨n - 1, by cases nested <;> simp at hn <;> omega⟩
  have hfuel : 2 * ls.length ≤ n + 5 := by cases nested <;> simp at hn <;> omega
  rw [List.append_assoc, List.cons_append, readEntries_entry hkey hval hts hfuel, afterEntry,
    h stop n _ ls' rest hrest hts' (by cases nested <;> simp at hn ⊢ <;> omega)]
  rfl

theorem compactItems_cons (v : Json) (vs : List Json) :
    Json.compactItems false (v :: vs) = ',' :: Json.compactItems true (v :: vs) := by
  simp [Json.compactItems]

theorem compactEntries_cons (e : String × Json) (es : List (String × Json)) :
    Json.compactEntries false (e :: es) = ',' :: Json.compactEntries true (e :: es) := by
  simp [Json.compactEntries]

theorem spelling_word {w r : List Char} (hw : IsWord w) (hr : Apart r) : Spelling r [wordToken w] w :=
  .one (begins_word hw hr)

theorem floatText_eq {x : Float} {s : List Char} (h : Decimal.dataText? x = some s) :
    Json.floatText x = s := by rw [Json.floatText, h]; rfl

mutual

/-- A value reads back from its compact text. -/
theorem compact_reads : ∀ (v : Json), v.Readable → ∀ r, Apart r →
    ∃ ts, Spelling r ts v.compact ∧ ReadsAs ts v
  | .null, _, r, hr => ⟨_, spelling_word (w := ['n', 'u', 'l', 'l']) ⟨'n', _, rfl, rfl, List.all_eq_true.1 rfl⟩ hr,
      readsAs_one fun stop n l ts hl ↦ by rw [readValue, hl]; rfl⟩
  | .bool true, _, r, hr => ⟨_, spelling_word (w := ['t', 'r', 'u', 'e']) ⟨'t', _, rfl, rfl, List.all_eq_true.1 rfl⟩ hr,
      readsAs_one fun stop n l ts hl ↦ by rw [readValue, hl]; rfl⟩
  | .bool false, _, r, hr => ⟨_, spelling_word (w := ['f', 'a', 'l', 's', 'e']) ⟨'f', _, rfl, rfl, List.all_eq_true.1 rfl⟩ hr,
      readsAs_one fun stop n l ts hl ↦ by rw [readValue, hl]; rfl⟩
  | .int n, h, r, hr => ⟨_, .one (begins_int n hr), readsAs_number (numberValue_intText h)⟩
  | .float x, h, r, hr => by
    obtain ⟨s, hs, hbegins, hval⟩ := numberValue_dataText h
    refine ⟨[.number s], ?_, readsAs_number hval⟩
    rw [Json.compact, floatText_eq hs]
    exact .one (hbegins r hr)
  | .str s, _, r, hr => ⟨_, .one (begins_quote s.toList r), readsAs_quote s⟩
  | .arr vs, h, r, hr => by
    obtain ⟨ts, hspell, hread⟩ := compactItems_reads vs h r
    refine ⟨.openBracket :: ts, ?_, .bracket hread⟩
    exact .token (w := ['[']) (begins_openBracket _) hspell
  | .obj es, h, r, hr => by
    obtain ⟨ts, hspell, hread⟩ := compactEntries_reads es h.2 r
    refine ⟨.openBrace :: ts, .token (w := ['\x7b']) (begins_openBrace _) hspell, ?_⟩
    have hbrace := ReadsAs.brace hread
    rwa [Entries.ofPairs_of_nodup h.1] at hbrace

theorem compactItems_reads : ∀ (vs : List Json), Json.ReadableItems vs → ∀ r,
    ∃ ts, Spelling r ts (Json.compactItems true vs ++ [']']) ∧ ItemsReadAs ts vs
  | [], _, r => ⟨_, .one (begins_closeBracket r), itemsReadAs_nil⟩
  | [v], h, r => by
    obtain ⟨ts, hspell, hread⟩ := compact_reads v h.1 ([']'] ++ r) (apart_cons (by decide) r)
    refine ⟨_, ?_, hread.last⟩
    simpa [Json.compactItems] using hspell.append (.one (begins_closeBracket r))
  | v :: w :: vs, h, r => by
    obtain ⟨ts', hspell', hread'⟩ := compactItems_reads (w :: vs) h.2 r
    have hcomma := Spelling.token (begins_comma _) hspell'
    obtain ⟨ts, hspell, hread⟩ := compact_reads v h.1 _ (apart_cons (c := ',') (by decide)
      ((Json.compactItems true (w :: vs) ++ [']']) ++ r))
    refine ⟨_, ?_, hread.more hread'⟩
    have := hspell.append hcomma
    rw [Json.compactItems, if_pos rfl, List.nil_append, compactItems_cons, List.append_assoc]
    exact this

theorem compactEntries_reads : ∀ (es : List (String × Json)), Json.ReadableEntries es → ∀ r,
    ∃ ts, Spelling r ts (Json.compactEntries true es ++ ['\x7d']) ∧ EntriesReadAs true ts es
  | [], _, r => ⟨_, .one (begins_closeBrace r), entriesReadAs_nil true⟩
  | [(k, v)], h, r => by
    obtain ⟨ts, hspell, hread⟩ := compact_reads v h.1 (['\x7d'] ++ r) (apart_cons (by decide) r)
    refine ⟨_, ?_, .last (keyReadsAs_quote k) hread⟩
    have := Spelling.token (begins_quote k.toList _) (.token (begins_colon _)
      (hspell.append (.one (begins_closeBrace r))))
    simpa [Json.compactEntries, closing] using this
  | (k, v) :: e :: es, h, r => by
    obtain ⟨ts', hspell', hread'⟩ := compactEntries_reads (e :: es) h.2 r
    have hcomma := Spelling.token (begins_comma _) hspell'
    obtain ⟨ts, hspell, hread⟩ := compact_reads v h.1 _ (apart_cons (c := ',') (by decide)
      ((Json.compactEntries true (e :: es) ++ ['\x7d']) ++ r))
    refine ⟨_, ?_, .more (keyReadsAs_quote k) hread hread'⟩
    have := Spelling.token (begins_quote k.toList _) (.token (begins_colon _) (hspell.append hcomma))
    rw [Json.compactEntries, if_pos rfl, List.nil_append, compactEntries_cons]
    simpa using this

end

end Payload

end Stencil
