import Stencil.Proofs.Payload.Grammar
import Stencil.Proofs.Payload.Pieces
import Stencil.Proofs.Payload.Writing
/-!
The reader and the search for the closing delimiter agree on where strings, lists and objects end. The
tokens of a derivation are balanced, and what spells them is passed over; so a payload that is read is
found whole between the delimiters.
-/

namespace Stencil

namespace Text

theorem trimEnd_append_blanks (s : List Char) : ∃ b, s = trimEnd s ++ b ∧ ∀ c ∈ b, isBlank c = true := by
  induction s with
  | nil => exact ⟨[], rfl, by simp⟩
  | cons c s ih =>
    obtain ⟨b, hs, hb⟩ := ih
    rw [trimEnd]
    split
    · next hnil =>
      rw [hnil, List.nil_append] at hs
      split
      · next hc => exact ⟨c :: s, rfl, by simpa [hs] using ⟨hc, hb⟩⟩
      · exact ⟨b, by rw [hs]; rfl, hb⟩
    · exact ⟨b, by rw [List.cons_append, ← hs], hb⟩

theorem trim_between_blanks (s : List Char) : ∃ a b, s = a ++ (trim s ++ b) ∧ (∀ c ∈ a, isBlank c = true) ∧
    ∀ c ∈ b, isBlank c = true := by
  obtain ⟨b, hs, hb⟩ := trimEnd_append_blanks (trimStart s)
  refine ⟨s.takeWhile isBlank, b, ?_, fun c hc ↦ List.all_eq_true.1 List.all_takeWhile c hc, hb⟩
  rw [trim, ← hs, trimStart, List.takeWhile_append_dropWhile]

end Text

namespace Payload

theorem plain_of_isBlank {c : Char} (h : Text.isBlank c = true) : Sealed.Plain c := by
  refine ⟨?_, ?_, ?_, ?_, ?_, ?_, ?_⟩ <;> (rintro rfl; exact absurd h (by decide))

theorem plain_of_isGap {c : Char} (h : isGap c = true) : Sealed.Plain c := by
  refine ⟨?_, ?_, ?_, ?_, ?_, ?_, ?_⟩ <;> (rintro rfl; exact absurd h (by decide))

/-! ### Tokens -/

namespace Spelling

variable {r s : List Char} {t : Token} {ts : List Token}

theorem uncons (h : Spelling r (t :: ts) s) :
    ∃ s₁ s₂, s = s₁ ++ s₂ ∧ Spelling (s₂ ++ r) [t] s₁ ∧ Spelling r ts s₂ := by
  rw [← List.singleton_append] at h
  exact h.split

/-- A token that is passed over is passed over with the blanks around it. -/
theorem sealed_single (h : Spelling r [t] s) (ht : ∀ w, t.Looks w → Sealed w) : Sealed s := by
  obtain ⟨g, w, g', rfl, hg, hw, hg'⟩ := h.single
  have hleft : Sealed g := .chars fun c hc ↦ plain_of_isGap (hg c hc)
  have hright : Sealed g' := .chars fun c hc ↦ plain_of_isGap (hg' c hc)
  exact hleft.append ((ht w hw).append hright)

theorem sealed_nest {o c : Token} {a b : Char} (h : Spelling r (o :: (ts ++ [c])) s)
    (ho : ∀ w, o.Looks w → w = [a]) (hc : ∀ w, c.Looks w → w = [b]) (ha : a = '\x7b' ∨ a = '[')
    (hb : b = '\x7d' ∨ b = ']') (hts : ∀ r s, Spelling r ts s → Sealed s) : Sealed s := by
  obtain ⟨s₁, s', rfl, hopen, hrest⟩ := h.uncons
  obtain ⟨s₂, s₃, rfl, hinner, hclose⟩ := hrest.split
  obtain ⟨g₁, w₁, g₂, rfl, hg₁, hw₁, hg₂⟩ := hopen.single
  obtain ⟨g₃, w₂, g₄, rfl, hg₃, hw₂, hg₄⟩ := hclose.single
  obtain rfl := ho w₁ hw₁
  obtain rfl := hc w₂ hw₂
  have hgap : ∀ {g : List Char}, (∀ c ∈ g, isGap c = true) → Sealed g :=
    fun hg ↦ .chars fun c hc ↦ plain_of_isGap (hg c hc)
  have hmiddle : Sealed (g₂ ++ (s₂ ++ g₃)) := (hgap hg₂).append ((hts _ _ hinner).append (hgap hg₃))
  have hall := (hgap hg₁).append ((hmiddle.nest ha hb).append (hgap hg₄))
  simpa using hall

end Spelling

theorem sealed_of_isString {q : Char} (hq : q = '"' ∨ q = '\'') {w : List Char} (h : IsString q w) : Sealed w := by
  obtain ⟨b, rfl, hb⟩ := h
  exact .string hq hb

theorem sealed_double {raw w : List Char} (h : (Token.double raw).Looks w) : Sealed w :=
  sealed_of_isString (.inl rfl) h.2

theorem sealed_single {raw w : List Char} (h : (Token.single raw).Looks w) : Sealed w :=
  sealed_of_isString (.inr rfl) h.2

theorem sealed_colon {w : List Char} (h : Token.colon.Looks w) : Sealed w := by
  obtain rfl : w = [':'] := h
  exact .char (by decide)

theorem sealed_comma {w : List Char} (h : Token.comma.Looks w) : Sealed w := by
  obtain rfl : w = [','] := h
  exact .char (by decide)

/-! ### Derivations -/

namespace Grammar

theorem Key.sealed {t : Token} {k : String} (h : Key t k) (w : List Char) (hw : t.Looks w) : Sealed w := by
  cases h with
  | double => exact sealed_double hw
  | single => exact sealed_single hw
  | _ => exact sealed_ink hw

mutual

theorem Value.sealed : ∀ {ts : List Token} {v : Json}, Value ts v → ∀ r s, Spelling r ts s → Sealed s
  | _, _, .yes, _, _, hs => hs.sealed_single fun _ ↦ sealed_ink
  | _, _, .no, _, _, hs => hs.sealed_single fun _ ↦ sealed_ink
  | _, _, .null, _, _, hs => hs.sealed_single fun _ ↦ sealed_ink
  | _, _, .ident, _, _, hs => hs.sealed_single fun _ ↦ sealed_ink
  | _, _, .double _, _, _, hs => hs.sealed_single fun _ ↦ sealed_double
  | _, _, .single, _, _, hs => hs.sealed_single fun _ ↦ sealed_single
  | _, _, .number _, _, _, hs => hs.sealed_single fun _ ↦ sealed_ink
  | _, _, .list hitems, _, _, hs =>
    hs.sealed_nest (fun _ ↦ id) (fun _ ↦ id) (.inr rfl) (.inr rfl) hitems.sealed
  | _, _, .object hpairs _, _, _, hs =>
    hs.sealed_nest (fun _ ↦ id) (fun _ ↦ id) (.inl rfl) (.inl rfl) hpairs.sealed

theorem Items.sealed : ∀ {ts : List Token} {vs : List Json}, Items ts vs → ∀ r s, Spelling r ts s → Sealed s
  | _, _, .nil, _, _, hs => .chars fun c hc ↦ plain_of_isGap (hs.gaps c hc)
  | _, _, .last hvalue, _, _, hs => hvalue.sealed _ _ hs
  | _, _, .more hvalue hitems, _, _, hs => by
    obtain ⟨s₁, s', rfl, hfirst, hrest⟩ := hs.split
    obtain ⟨s₂, s₃, rfl, hcomma, hmore⟩ := hrest.uncons
    have hsep := hcomma.sealed_single fun _ ↦ sealed_comma
    exact (hvalue.sealed _ _ hfirst).append (hsep.append (hitems.sealed _ _ hmore))

theorem Pairs.sealed : ∀ {ts : List Token} {ps : List (String × Json)}, Pairs ts ps →
    ∀ r s, Spelling r ts s → Sealed s
  | _, _, .nil, _, _, hs => .chars fun c hc ↦ plain_of_isGap (hs.gaps c hc)
  | _, _, .last hkey hvalue, _, _, hs => by
    obtain ⟨s₁, s', rfl, hname, hrest⟩ := hs.uncons
    obtain ⟨s₂, s₃, rfl, hcolon, hmore⟩ := hrest.uncons
    have hsep := hcolon.sealed_single fun _ ↦ sealed_colon
    exact (hname.sealed_single hkey.sealed).append (hsep.append (hvalue.sealed _ _ hmore))
  | _, _, .more hkey hvalue hpairs, _, _, hs => by
    obtain ⟨s', s'', rfl, hentry, hrest⟩ := hs.split
    obtain ⟨s₁, s₁', rfl, hname, hentry'⟩ := hentry.uncons
    obtain ⟨s₂, s₃, rfl, hcolon, hbody⟩ := hentry'.uncons
    obtain ⟨s₄, s₅, rfl, hcomma, hmore⟩ := hrest.uncons
    have hcolon' := hcolon.sealed_single fun _ ↦ sealed_colon
    have hcomma' := hcomma.sealed_single fun _ ↦ sealed_comma
    have hfirst := (hname.sealed_single hkey.sealed).append (hcolon'.append (hvalue.sealed _ _ hbody))
    exact hfirst.append (hcomma'.append (hpairs.sealed _ _ hmore))

end

end Grammar

/-! ### Payloads -/

theorem sealed_of_namedCommand {s : List Char} {c : Command} (h : namedCommand s = .ok c) : Sealed s := by
  obtain ⟨first, rest, name, ps, hts, hfirst, -, hpairs, -⟩ := namedCommand_iff.1 h
  have hspelling := spelling_of_lexed (i := 0) hts
  rw [List.map_cons, hfirst] at hspelling
  obtain ⟨s₁, s₂, rfl, hname, hrest⟩ := hspelling.uncons
  exact (hname.sealed_single fun _ ↦ sealed_ink).append (hpairs.sealed _ _ hrest)

theorem sealed_of_trim {s : List Char} (h : Sealed (Text.trim s)) : Sealed s := by
  obtain ⟨a, b, hs, ha, hb⟩ := Text.trim_between_blanks s
  have hleft : Sealed a := .chars fun c hc ↦ plain_of_isBlank (ha c hc)
  have hright : Sealed b := .chars fun c hc ↦ plain_of_isBlank (hb c hc)
  rw [hs]
  exact hleft.append (h.append hright)

/-- The pieces of a payload that is read are passed over: each is blank, or a command. -/
theorem sealed_of_readSegments {i : ℕ} {ps : List (List Char)} {cs : Commands} (h : readSegments i ps = .ok cs)
    (hmark : ∀ p ∈ ps, ∀ c ∈ (Text.trim p).head?, isMark c = false) : ∀ p ∈ ps, Sealed p := by
  induction ps generalizing i cs with
  | nil => simp
  | cons p ps ih =>
    rw [readSegments] at h
    have hrest : ∀ {j ds}, readSegments j ps = .ok ds → ∀ q ∈ ps, Sealed q :=
      fun hread ↦ ih hread fun q hq ↦ hmark q (List.mem_cons_of_mem _ hq)
    suffices hall : Sealed p ∧ ∀ q ∈ ps, Sealed q by simpa using hall
    split at h
    · next hblank =>
      refine ⟨sealed_of_trim ?_, hrest h⟩
      rw [List.isEmpty_iff.1 hblank]
      exact .nil
    · dsimp only at h
      split at h
      · contradiction
      · next c hc =>
        obtain ⟨ds, hds, -⟩ := except_map_eq_ok.1 h
        refine ⟨sealed_of_trim (sealed_of_namedCommand (c := c) ?_), hrest hds⟩
        rw [readCommand, shortForm?_none (hmark p (List.mem_cons_self ..))] at hc
        exact hc

/-- What stands behind the first piece is passed over when the other pieces are. -/
theorem level_behind_first (q : Quoting) (s : List Char) (h : ∀ p ∈ (segments q s).tail, Level p) :
    ∃ p ps t, segments q s = p :: ps ∧ s = p ++ t ∧ Level t := by
  induction s generalizing q with
  | nil => exact ⟨[], [], [], rfl, rfl, .nil⟩
  | cons c s ih =>
    by_cases hcut : q = .outside ∧ c = ';'
    · have heq : segments q (c :: s) = [] :: segments .outside s := by rw [segments, if_pos hcut]
      rw [heq, List.tail_cons] at h
      obtain ⟨p, ps, t, hps, rfl, ht⟩ := ih .outside fun p hp ↦ h p (List.mem_of_mem_tail hp)
      have hp : Level p := h p (by simp [hps])
      have hsemicolon : Level [c] := by
        rw [hcut.2]
        exact .char (by decide) (by decide) (by decide)
      exact ⟨[], _, c :: (p ++ t), heq, rfl, hsemicolon.append (hp.append ht)⟩
    · rw [segments_cons hcut] at h ⊢
      obtain ⟨p, ps, t, hps, rfl, ht⟩ := ih (q.step c) fun p hp ↦ h p (by
        cases hseg : segments (q.step c) s with
        | nil => simp [hseg] at hp
        | cons p' ps' => simpa [hseg, prepend] using hp)
      exact ⟨c :: p, ps, t, by rw [hps]; rfl, rfl, ht⟩

theorem level_of_segments {q : Quoting} {s : List Char} (h : ∀ p ∈ segments q s, Level p) : Level s := by
  obtain ⟨p, ps, t, hps, rfl, ht⟩ := level_behind_first q s fun p hp ↦ h p (List.mem_of_mem_tail hp)
  exact (h p (by simp [hps])).append ht

theorem level_of_read {p : List Char} {cs : Commands} (h : read p = .ok cs)
    (hmark : ∀ q ∈ segments .outside p, ∀ c ∈ (Text.trim q).head?, isMark c = false) : Level p := by
  obtain ⟨ds, hds, -⟩ := except_bind_eq_ok.1 h
  apply level_of_segments (q := .outside)
  intro q hq
  exact (sealed_of_readSegments hds hmark q hq).level

end Payload

namespace Delimiters

open Payload

/-- A payload that is read, none of whose commands is a short form, is found whole between the delimiters,
whatever follows. -/
theorem markerFrom?_read {d : Delimiters} (hclosing : EndsBracket d.closing.toList) {p : List Char} {cs : Commands}
    (hread : Payload.read p = .ok cs)
    (hmark : ∀ q ∈ segments .outside p, ∀ c ∈ (Text.trim q).head?, isMark c = false) (r : List Char) :
    d.markerFrom? (d.enclose p ++ r) 0 = some ⟨0, p⟩ :=
  markerFrom?_enclose_level hclosing (level_of_read hread hmark) r

/-- Brackets and a quote inside strings of either kind, and the closing delimiter as a bracket. -/
theorem markerFrom?_read_nested :
    (∃ cs, Payload.read "If a:\x7bb:'\x7d\"', c:[\"]\\\"\"]\x7d; Else".toList = .ok cs) ∧
      (∀ q ∈ segments .outside "If a:\x7bb:'\x7d\"', c:[\"]\\\"\"]\x7d; Else".toList,
        ∀ c ∈ (Text.trim q).head?, isMark c = false) ∧
      Delimiters.default.markerFrom? (Delimiters.default.enclose
        "If a:\x7bb:'\x7d\"', c:[\"]\\\"\"]\x7d; Else".toList ++ "\x7d'".toList) 0 =
          some ⟨0, "If a:\x7bb:'\x7d\"', c:[\"]\\\"\"]\x7d; Else".toList⟩ := by
  have hread : (Payload.read "If a:\x7bb:'\x7d\"', c:[\"]\\\"\"]\x7d; Else".toList).toBool = true := by decide +kernel
  have hmark : ∀ q ∈ segments .outside "If a:\x7bb:'\x7d\"', c:[\"]\\\"\"]\x7d; Else".toList,
      ∀ c ∈ (Text.trim q).head?, isMark c = false := by
    have hall : (segments .outside "If a:\x7bb:'\x7d\"', c:[\"]\\\"\"]\x7d; Else".toList).all
        (fun q ↦ (Text.trim q).head?.all fun c ↦ !isMark c) = true := by decide +kernel
    simpa only [List.all_eq_true, Option.all_eq_true, Bool.not_eq_true', ← Option.mem_def] using hall
  obtain ⟨cs, hcs⟩ := except_toBool.1 hread
  exact ⟨⟨cs, hcs⟩, hmark, markerFrom?_read ⟨'\x7d', [], rfl, .inl rfl⟩ hcs hmark _⟩

end Delimiters

end Stencil
