import Stencil.Proofs.Payload.Sealed
import Stencil.Proofs.Text.Trim
/-!
Commands read back from the text they are written as, and their marker is found whole.
-/

namespace Stencil

/-- Commands that can be written: a name that is a word, and parameters that read back. -/
structure Command.Writable (c : Command) : Prop where
  word : Payload.IsWord c.name.toList
  ident : Payload.wordToken c.name.toList = .ident c.name.toList
  keys : (Entries.keys c.params).Nodup
  values : Json.ReadableEntries c.params

namespace Payload

theorem IsInk.range {c : Char} (h : IsInk c) : 33 < c.toNat ∧ c.toNat < 123 ∧ c.toNat ≠ 39 ∧
    c.toNat ≠ 59 ∧ c.toNat ≠ 91 ∧ c.toNat ≠ 93 ∧ c.toNat ≠ 34 := by
  rcases h with h | h | rfl | rfl
  · simp only [isWordRest, Bool.or_eq_true, beq_iff_eq] at h
    rcases h with ((h | h) | rfl) | rfl
    · have := isLetter_range h; omega
    · have := isDigit_range h; omega
    · decide
    · decide
  · simp only [isMark, Bool.or_eq_true, beq_iff_eq] at h
    rcases h with rfl | rfl <;> decide
  · decide
  · decide

theorem IsInk.plain {c : Char} (h : IsInk c) : Sealed.Plain c := by
  have hr := h.range
  refine ⟨?_, ?_, ?_, ?_, ?_, ?_, ?_⟩ <;> rintro rfl <;> revert hr <;> decide

theorem IsInk.not_blank {c : Char} (h : IsInk c) : Text.isBlank c = false := by
  have hr := h.range
  simp only [Text.isBlank, Text.blankRanges, List.any_cons, List.any_nil, Bool.or_eq_false_iff,
    Bool.and_eq_false_iff, decide_eq_false_iff_not]
  refine ⟨?_, ?_, ?_, ?_, ?_, ?_, ?_, ?_, ?_, ?_, trivial⟩ <;> omega

theorem isInk_digits {ds : List Char} (h : AllDigits ds) : ∀ c ∈ ds, IsInk c :=
  fun c hc ↦ .inl (isWordRest_of_isDigit c (h c hc))

theorem isInk_signed {w : List Char} (negative : Bool) (h : ∀ c ∈ w, IsInk c) :
    ∀ c ∈ signText negative ++ w, IsInk c := by
  intro c hc
  rcases List.mem_append.1 hc with hc | hc
  · cases negative
    · simp [signText] at hc
    · obtain rfl : c = '-' := by simpa [signText] using hc
      exact .inl rfl
  · exact h c hc

theorem isInk_positional {ds : List Char} (h : AllDigits ds) (point : ℤ) :
    (∀ c ∈ (Decimal.positional ds point).1, IsInk c) ∧ ∀ c ∈ (Decimal.positional ds point).2, IsInk c := by
  simp only [Decimal.positional]
  split
  · exact ⟨isInk_digits (allDigits_zeros 1), isInk_digits ((allDigits_zeros _).append h)⟩
  · exact ⟨isInk_digits ((h.take _).append (allDigits_zeros _)), isInk_digits (h.drop _)⟩

theorem isInk_dataMagnitude (d : Decimal.Dyadic) : ∀ c ∈ Decimal.dataMagnitude d, IsInk c := by
  have hall := allDigits_natText d.shortest.digits
  have hdot : IsInk '.' := .inr (.inr (.inl rfl))
  have hparts := isInk_positional hall ((Decimal.natText d.shortest.digits).length + d.shortest.exponent)
  simp only [Decimal.dataMagnitude]
  split
  · intro c hc
    rcases List.mem_append.1 hc with hc | hc
    · exact hparts.1 c hc
    · rcases List.mem_cons.1 hc with rfl | hc
      · exact hdot
      · split at hc
        · exact isInk_digits (allDigits_zeros 1) c hc
        · exact hparts.2 c hc
  · intro c hc
    simp only [List.mem_append, List.mem_cons] at hc
    rcases hc with (hc | hc) | rfl | rfl | hc
    · exact isInk_digits (hall.take 1) c hc
    · split at hc
      · simp at hc
      · rcases List.mem_cons.1 hc with rfl | hc
        · exact hdot
        · exact isInk_digits (hall.drop 1) c hc
    · exact .inl rfl
    · split
      · exact .inl rfl
      · exact .inr (.inr (.inr rfl))
    · exact isInk_digits (allDigits_natText _) c hc

theorem isInk_intText (n : ℤ) : ∀ c ∈ Decimal.intText n, IsInk c := by
  rw [intText_eq]
  exact isInk_signed _ (isInk_digits (allDigits_natText _))

theorem dataMagnitude_ne_nil (d : Decimal.Dyadic) : Decimal.dataMagnitude d ≠ [] := by
  simp only [Decimal.dataMagnitude]
  split <;> simp

/-- A number with a form in data text, or the word that stands for one without. -/
theorem floatText_cases (x : Float) : Json.floatText x = "null".toList ∨
    ∃ d : Decimal.Dyadic, Json.floatText x = signText d.negative ++ Decimal.dataMagnitude d := by
  cases hd : Decimal.Dyadic.ofFloat? x with
  | none => exact .inl (by simp [Json.floatText, Decimal.dataText?, hd])
  | some d => exact .inr ⟨d, by simp [Json.floatText, Decimal.dataText?, hd, signText]⟩

theorem isInk_floatText (x : Float) : ∀ c ∈ Json.floatText x, IsInk c := by
  obtain heq | ⟨d, heq⟩ := floatText_cases x
  · rw [heq]
    have hletters : ∀ c ∈ "null".toList, isWordRest c = true := List.all_eq_true.1 (by decide +kernel)
    exact fun c hc ↦ .inl (hletters c hc)
  · rw [heq]
    exact isInk_signed _ (isInk_dataMagnitude d)

theorem IsWord.isInk {w : List Char} (h : IsWord w) : ∀ c ∈ w, IsInk c := by
  obtain ⟨c, w', rfl, hc, hw'⟩ := h
  intro d hd
  rcases List.mem_cons.1 hd with rfl | hd
  · have hrest : isWordRest d = true := by
      simp only [isWordStart, Bool.or_eq_true] at hc
      simp only [isWordRest, Bool.or_eq_true]
      exact hc.elim (fun h ↦ .inl (.inl (.inl h))) (fun h ↦ .inl (.inr h))
    exact .inl hrest
  · exact .inl (hw' d hd)

theorem sealed_ink {s : List Char} (h : ∀ c ∈ s, IsInk c) : Sealed s := .chars fun c hc ↦ (h c hc).plain

mutual

/-- Neither scan stops inside the compact text of a value. -/
theorem sealed_compact : ∀ v : Json, Sealed v.compact
  | .null => .chars (s := ['n', 'u', 'l', 'l']) (by simp [Sealed.Plain])
  | .bool true => .chars (s := ['t', 'r', 'u', 'e']) (by simp [Sealed.Plain])
  | .bool false => .chars (s := ['f', 'a', 'l', 's', 'e']) (by simp [Sealed.Plain])
  | .int n => sealed_ink (isInk_intText n)
  | .float x => sealed_ink (isInk_floatText x)
  | .str s => .quote s.toList
  | .arr vs => (sealed_items vs true).nest (.inr rfl) (.inr rfl)
  | .obj es => (sealed_entries es true).nest (.inl rfl) (.inl rfl)

theorem sealed_items : ∀ (vs : List Json) (first : Bool), Sealed (Json.compactItems first vs)
  | [], _ => .nil
  | v :: vs, first => by
    have hlead : Sealed (if first then [] else [',']) := by
      cases first
      · exact .char (by decide)
      · exact .nil
    exact (hlead.append (sealed_compact v)).append (sealed_items vs false)

theorem sealed_entries : ∀ (es : List (String × Json)) (first : Bool), Sealed (Json.compactEntries first es)
  | [], _ => .nil
  | (k, v) :: es, first => by
    have hlead : Sealed (if first then [] else [',']) := by
      cases first
      · exact .char (by decide)
      · exact .nil
    have hcolon : Sealed [':'] := .char (by decide)
    have := ((hlead.append (.quote k.toList)).append (hcolon.append (sealed_compact v))).append
      (sealed_entries es false)
    simpa [Json.compactEntries] using this

end

theorem isWord_of_all {c : Char} {s : List Char} (h : (isWordStart c && s.all isWordRest) = true) :
    IsWord (c :: s) := by
  simp only [Bool.and_eq_true, List.all_eq_true] at h
  exact ⟨c, s, rfl, h.1, h.2⟩

theorem writeKey_reads (key : String) : Sealed (writeKey key) ∧
    ∃ t, KeyReadsAs t key ∧ ∀ r, Apart r → Begins t (writeKey key) r := by
  rw [writeKey]
  split
  · next h =>
    have hread := keyReadsAs_ident key.toList
    rw [String.ofList_toList] at hread
    unfold isBareKey at h
    rw [Bool.and_eq_true] at h
    obtain ⟨hword, htoken⟩ := h
    cases hkey : key.toList with
    | nil => rw [hkey] at hword; simp at hword
    | cons c s =>
      rw [hkey] at hword htoken hread
      simp only at hword
      by_cases hmark : isMark c = true
      · simp only [hmark, if_true] at hword
        cases hs : s with
        | nil => rw [hs] at hword; simp at hword
        | cons d r =>
          rw [hs] at hword
          have hw := isWord_of_all hword
          refine ⟨sealed_ink fun x hx ↦ ?_, .ident (c :: d :: r), hs ▸ hread, fun _ hr ↦ begins_marked hmark hw hr⟩
          rcases List.mem_cons.1 hx with rfl | hx
          · exact .inr (.inl hmark)
          · exact hw.isInk x hx
      · simp only [hmark, if_false, Bool.false_eq_true] at hword
        have hw := isWord_of_all hword
        have hident : wordToken (c :: s) = .ident (c :: s) := by
          revert htoken
          rw [wordToken]
          split_ifs <;> simp
        refine ⟨sealed_ink hw.isInk, .ident (c :: s), hread, fun r hr ↦ ?_⟩
        rw [← hident]
        exact begins_word hw hr
  · exact ⟨.quote _, _, keyReadsAs_quote key, fun r _ ↦ begins_quote _ r⟩

theorem writeEntries_cons (e : String × Json) (es : Entries Json) :
    writeEntries [',', ' '] (e :: es) = ',' :: writeEntries [' '] (e :: es) := by
  simp [writeEntries]

theorem writeEntries_reads : ∀ es : Entries Json, Json.ReadableEntries es →
    ∃ ts, Spelling [] ts (writeEntries [' '] es) ∧ EntriesReadAs false ts es
  | [], _ => ⟨[], .nil, entriesReadAs_nil false⟩
  | [(k, v)], h => by
    obtain ⟨ts, hspell, hread⟩ := compact_reads v h.1 [] apart_nil
    obtain ⟨_, t, hkey, hbegins⟩ := writeKey_reads k
    have hall := Spelling.gap (c := ' ') rfl (.token (hbegins _ (apart_cons (c := ':') (by decide) _))
      (.token (begins_colon _) hspell))
    refine ⟨_, ?_, .last hkey hread⟩
    simpa [writeEntries, closing] using hall
  | (k, v) :: e :: es, h => by
    obtain ⟨ts', hspell', hread'⟩ := writeEntries_reads (e :: es) h.2
    have hcomma := Spelling.token (begins_comma _) hspell'
    obtain ⟨ts, hspell, hread⟩ := compact_reads v h.1 _ (apart_cons (c := ',') (by decide)
      (writeEntries [' '] (e :: es) ++ []))
    obtain ⟨_, t, hkey, hbegins⟩ := writeKey_reads k
    have hall := Spelling.gap (c := ' ') rfl (.token (hbegins _ (apart_cons (c := ':') (by decide) _))
      (.token (begins_colon _) (hspell.append hcomma)))
    refine ⟨_, ?_, .more hkey hread hread'⟩
    rw [writeEntries, writeEntries_cons]
    simpa using hall

theorem sealed_writeEntries : ∀ (es : Entries Json) {lead : List Char}, Sealed lead → Sealed (writeEntries lead es)
  | [], _, _ => .nil
  | (k, v) :: es, lead, hlead => by
    have hcolon : Sealed [':'] := .char (by decide)
    have hcomma : Sealed [',', ' '] := .chars (by simp [Sealed.Plain])
    have := ((hlead.append (writeKey_reads k).1).append (hcolon.append (sealed_compact v))).append
      (sealed_writeEntries es hcomma)
    simpa [writeEntries] using this

theorem sealed_writeCommand {c : Command} (h : IsWord c.name.toList) : Sealed (writeCommand c) :=
  (sealed_ink h.isInk).append (sealed_writeEntries _ (.char (by decide)))

theorem apart_writeEntries (es : Entries Json) : Apart (writeEntries [' '] es) := by
  cases es with
  | nil => exact apart_nil
  | cons e es => exact apart_cons (c := ' ') (by decide) _

theorem namedCommand_writeCommand {c : Command} (h : c.Writable) :
    ∃ span?, namedCommand (writeCommand c) = .ok { c with span? } := by
  obtain ⟨ts, hspell, hread⟩ := writeEntries_reads c.params h.values
  have hapart : Apart (writeEntries [' '] c.params ++ []) := by
    rw [List.append_nil]
    exact apart_writeEntries c.params
  have hall := Spelling.token (begins_word h.word hapart) hspell
  obtain ⟨ls, hls, hlex⟩ := hall.lexed_whole 0
  obtain ⟨⟨t, s, i⟩, ls, rfl, rfl, hts⟩ := split_token hls
  rw [h.ident] at hlex
  have hmark : (c.name.toList.head?.all fun c ↦ !isMark c) = true := by
    obtain ⟨d, w, hw, hd, _⟩ := h.word
    rw [hw]
    have hne : isMark d = false := by
      simp only [isMark, Bool.or_eq_false_iff, beq_eq_false_iff_ne]
      constructor <;> rintro rfl <;> revert hd <;> decide
    simp [hne]
  have hparams := hread (endOf (⟨.ident c.name.toList, s, i⟩ :: ls)) (2 * (ls.length + 1)) [] ls [] (fun _ ↦ rfl) hts
    (by simp)
  refine ⟨some ⟨i, Text.width (writeCommand c)⟩, ?_⟩
  rw [List.append_nil, ← Entries.ofPairs_eq, Entries.ofPairs_of_nodup h.keys] at hparams
  have hlex' : tokensOf (lexemes (writeCommand c)) = .ok (⟨.ident c.name.toList, s, i⟩ :: ls) := hlex
  simp only [namedCommand, hlex', bind, Except.bind, hmark, if_true, List.length_cons, hparams,
    String.ofList_toList]

theorem endsInk_number {s : List Char} {t : Token} (h : Begins t s []) (hink : ∀ c ∈ s, IsInk c) :
    Text.EndsInk s := by
  obtain ⟨c, w, rfl, _⟩ := h
  exact Text.endsInk_of_all (by simp) fun d hd ↦ (hink d hd).not_blank

theorem endsInk_compact (v : Json) : Text.EndsInk v.compact := by
  cases v with
  | null => exact ⟨['n', 'u', 'l'], 'l', rfl, rfl⟩
  | bool b =>
    cases b
    · exact ⟨['f', 'a', 'l', 's'], 'e', rfl, rfl⟩
    · exact ⟨['t', 'r', 'u'], 'e', rfl, rfl⟩
  | int n => exact endsInk_number (begins_int n apart_nil) (isInk_intText n)
  | float x =>
    have hne : Json.floatText x ≠ [] := by
      obtain heq | ⟨d, heq⟩ := floatText_cases x
      · simp [heq]
      · simp [heq, dataMagnitude_ne_nil]
    exact Text.endsInk_of_all hne fun c hc ↦ (isInk_floatText x c hc).not_blank
  | str s => exact ⟨_, '"', rfl, rfl⟩
  | arr vs => exact ⟨_, ']', rfl, rfl⟩
  | obj es => exact ⟨_, '\x7d', rfl, rfl⟩

theorem endsInk_writeEntries : ∀ es : Entries Json, es ≠ [] → ∀ lead, Text.EndsInk (writeEntries lead es)
  | [], h, _ => absurd rfl h
  | [(k, v)], _, lead => by
    have := (endsInk_compact v).append (lead ++ writeKey k ++ [':'])
    simpa [writeEntries] using this
  | (k, v) :: e :: es, _, lead => by
    have := (endsInk_writeEntries (e :: es) (by simp) [',', ' ']).append
      (lead ++ writeKey k ++ ':' :: v.compact)
    simpa [writeEntries] using this

theorem IsWord.startsInk {w : List Char} (h : IsWord w) : Text.StartsInk w := by
  have hink := h.isInk
  obtain ⟨c, w', rfl, _⟩ := h
  exact ⟨c, w', rfl, (hink c (by simp)).not_blank⟩

theorem trim_writeCommand {c : Command} (h : IsWord c.name.toList) : Text.trim (writeCommand c) = writeCommand c := by
  refine Text.trim_of_ink (h.startsInk.append _) ?_
  have hink := h.isInk
  rw [writeCommand]
  by_cases hp : c.params = []
  · obtain ⟨d, w, hw, _⟩ := h
    rw [hp, writeEntries, List.append_nil]
    exact Text.endsInk_of_all (by simp [hw]) fun d hd ↦ (hink d hd).not_blank
  · exact (endsInk_writeEntries _ hp _).append _

theorem writeCommand_ne_nil {c : Command} (h : IsWord c.name.toList) : writeCommand c ≠ [] := by
  obtain ⟨d, w, hw, _⟩ := h
  simp [writeCommand, hw]

theorem readCommand_word {c : Command} (h : IsWord c.name.toList) {s : List Char} (hs : Text.trim s = writeCommand c) :
    readCommand s = namedCommand (writeCommand c) := by
  obtain ⟨d, w, hw, hd, _⟩ := h
  have hshort : shortForm? (writeCommand c) = none := by
    rw [writeCommand, hw, List.cons_append]
    unfold shortForm?
    split
    · next heq => rw [(List.cons.inj heq).1] at hd; exact absurd hd (by decide)
    · next heq => rw [(List.cons.inj heq).1] at hd; exact absurd hd (by decide)
    · rfl
  rw [readCommand, hs]
  simp only [hshort]

theorem readCommand_of_trim {c : Command} (h : c.Writable) {s : List Char}
    (hs : Text.trim s = writeCommand c) : ∃ span?, readCommand s = .ok { c with span? } := by
  rw [readCommand_word h.word hs]
  exact namedCommand_writeCommand h

/-- Commands that are the same but for the places they were read from. -/
def Commands.Agree (cs ds : Commands) : Prop := List.Forall₂ (fun c d ↦ ∃ span?, c = { d with span? }) cs ds

/-- Pieces that are commands, but for the blanks around each, read back as the commands. -/
theorem readSegments_of_trim {cs : Commands} {ps : List (List Char)}
    (h : List.Forall₂ (fun c p ↦ c.Writable ∧ Text.trim p = writeCommand c) cs ps) (i : ℕ) :
    ∃ ds, readSegments i ps = .ok ds ∧ Commands.Agree ds cs := by
  induction h generalizing i with
  | nil => exact ⟨[], rfl, .nil⟩
  | @cons c p cs ps hc _ ih =>
    obtain ⟨hwrite, htrim⟩ := hc
    obtain ⟨span?, hread⟩ := readCommand_of_trim hwrite htrim
    obtain ⟨ds, hds, hagree⟩ := ih (i + Text.width p + 1)
    refine ⟨{ c with span? } :: ds, ?_, .cons ⟨span?, rfl⟩ hagree⟩
    have hne : (Text.trim p).isEmpty = false := by
      rw [htrim]
      simpa using writeCommand_ne_nil hwrite.word
    rw [readSegments, hne]
    simp only [Bool.false_eq_true, if_false, hread, hds]
    rfl

theorem segments_sealed {s : List Char} (h : Sealed s) : segments .outside s = [s] := by
  have := h.whole []
  rw [List.append_nil] at this
  rw [this]
  simp [segments, prepend]

theorem segments_semicolon {s : List Char} (h : Sealed s) (r : List Char) :
    segments .outside (s ++ ';' :: r) = s :: segments .outside r := by
  rw [h.whole, segments]
  simp [prepend]

theorem segments_blank (r : List Char) (p : List Char) (ps : List (List Char))
    (h : segments .outside r = p :: ps) : segments .outside (' ' :: r) = (' ' :: p) :: ps := by
  rw [segments_cons (by decide)]
  change prepend [' '] (segments .outside r) = _
  rw [h]
  rfl

theorem segments_write : ∀ {cs : Commands}, cs ≠ [] → (∀ c ∈ cs, IsWord c.name.toList) →
    ∃ p ps, segments .outside (write cs) = p :: ps ∧ List.Forall₂ (fun c p ↦ Text.trim p = writeCommand c) cs (p :: ps)
  | [], h, _ => absurd rfl h
  | [c], _, h => by
    have hc := h c (by simp)
    exact ⟨_, [], segments_sealed (sealed_writeCommand hc), .cons (trim_writeCommand hc) .nil⟩
  | c :: d :: cs, _, h => by
    have hc := h c (by simp)
    obtain ⟨p, ps, hseg, hall⟩ := segments_write (List.cons_ne_nil d cs) fun x hx ↦ h x (by simp [hx])
    refine ⟨writeCommand c, (' ' :: p) :: ps, ?_, .cons (trim_writeCommand hc) ?_⟩
    · rw [write, segments_semicolon (sealed_writeCommand hc), segments_blank _ p ps hseg]
      simp
    · cases hall with
      | cons hd htail =>
        exact .cons (by rw [Text.trim_cons_of_blank (by decide), hd]) htail

/-- Commands read back from their text. -/
theorem read_write {cs : Commands} (hne : cs ≠ []) (h : ∀ c ∈ cs, c.Writable) :
    ∃ ds, read (write cs) = .ok ds ∧ Commands.Agree ds cs := by
  obtain ⟨p, ps, hseg, hall⟩ := segments_write hne fun c hc ↦ (h c hc).word
  obtain ⟨ds, hds, hagree⟩ := readSegments_of_trim ((List.forall₂_and_left _ _).2 ⟨h, hall⟩) 0
  have hempty : ds.isEmpty = false := by
    cases hagree with
    | nil => exact absurd rfl hne
    | cons _ _ => rfl
  refine ⟨ds, ?_, hagree⟩
  simp only [read, hseg, hds, bind, Except.bind, hempty, Bool.false_eq_true, if_false]

/-- A name: a word that stands for no value. -/
def IsName (w : List Char) : Prop := IsWord w ∧ wordToken w = .ident w

theorem namedCommand_name {c d : Command} (h : IsName c.name.toList) (hread : namedCommand (writeCommand c) = .ok d) :
    d.name = c.name := by
  obtain ⟨hword, hident⟩ := h
  have hbegins := begins_word hword (apart_writeEntries c.params)
  rw [hident] at hbegins
  have hlexed : tokensOf (lexemes (writeCommand c)) =
      (lexed (0 + Text.width c.name.toList) (writeEntries [' '] c.params)).map (⟨.ident c.name.toList, c.name.toList, 0⟩ :: ·) :=
    lexed_token hbegins 0
  obtain ⟨ts, hts, hcommand⟩ := except_bind_eq_ok.1 hread
  rw [hlexed] at hts
  obtain ⟨rest, -, rfl⟩ := except_map_eq_ok.1 hts
  dsimp only at hcommand
  split at hcommand
  · obtain ⟨_, -, hd⟩ := except_bind_eq_ok.1 hcommand
    rw [← Except.ok.inj hd, String.ofList_toList]
  · cases hcommand

/-- Whatever is read from pieces that are commands but for the blanks around each, has their names. -/
theorem readSegments_names {cs : Commands} {ps : List (List Char)}
    (h : List.Forall₂ (fun c p ↦ IsName c.name.toList ∧ Text.trim p = writeCommand c) cs ps) {i : ℕ} {ds : Commands}
    (hread : readSegments i ps = .ok ds) : ds.map Command.name = cs.map Command.name := by
  induction h generalizing i ds with
  | nil => rw [← Except.ok.inj hread]
  | @cons c p cs ps hc _ ih =>
    obtain ⟨hname, htrim⟩ := hc
    have hne : (Text.trim p).isEmpty = false := by
      rw [htrim]
      simpa using writeCommand_ne_nil hname.1
    rw [readSegments, hne, readCommand_word hname.1 htrim] at hread
    simp only [Bool.false_eq_true, if_false] at hread
    cases hcommand : namedCommand (writeCommand c) with
    | error e => simp [hcommand] at hread
    | ok d =>
      rw [hcommand] at hread
      obtain ⟨rest, hrest, rfl⟩ := except_map_eq_ok.1 hread
      rw [List.map_cons, List.map_cons, namedCommand_name hname hcommand, ih hrest]

/-- Whatever is read from written commands has their names. -/
theorem read_write_names {cs ds : Commands} (hne : cs ≠ []) (h : ∀ c ∈ cs, IsName c.name.toList)
    (hread : read (write cs) = .ok ds) : ds.map Command.name = cs.map Command.name := by
  obtain ⟨p, ps, hseg, hall⟩ := segments_write hne fun c hc ↦ (h c hc).1
  obtain ⟨es, hes, hread⟩ := except_bind_eq_ok.1 hread
  split at hread
  · cases hread
  · obtain rfl := Except.ok.inj hread
    exact readSegments_names ((List.forall₂_and_left _ _).2 ⟨h, hall⟩) (hseg ▸ hes)

/-- The search for the closing delimiter passes over written commands. -/
theorem level_write : ∀ {cs : Commands}, (∀ c ∈ cs, IsWord c.name.toList) → Level (write cs)
  | [], _ => .nil
  | [c], h => (sealed_writeCommand (h c (by simp))).level
  | c :: d :: cs, h => by
    have hhead := (sealed_writeCommand (h c (by simp))).level
    have htail : Level (write (d :: cs)) := level_write fun x hx ↦ h x (by simp [hx])
    have hsep : Level [';', ' '] :=
      .append (s := [';']) (.char (by decide) (by decide) (by decide)) (.char (by decide) (by decide) (by decide))
    simpa [write] using hhead.append (hsep.append htail)

end Payload

end Stencil
