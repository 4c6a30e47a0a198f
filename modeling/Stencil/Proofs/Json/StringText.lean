import Stencil.Json.Reader
import Stencil.Json.Text
import Stencil.Proofs.Attempt
/-!
String literals of data text: which there are, and what they stand for. The reader accepts exactly
these, so strings read back from the literals they were written as.
-/

namespace Stencil.Json

/-- The inside of a string between quotes: characters that stand for themselves, and backslashes with
the character each takes along. -/
inductive Escaped (quote : Char) : List Char → Prop where
  | nil : Escaped quote []
  | plain {c s} : c ≠ quote → c ≠ '\\' → Escaped quote s → Escaped quote (c :: s)
  | pair {c s} : c ≠ '\n' → Escaped quote s → Escaped quote ('\\' :: c :: s)

theorem Escaped.append {quote : Char} {s t : List Char} (hs : Escaped quote s) (ht : Escaped quote t) :
    Escaped quote (s ++ t) := by
  induction hs with
  | nil => exact ht
  | plain h₁ h₂ _ ih => exact .plain h₁ h₂ ih
  | pair h _ ih => exact .pair h ih

inductive Hex : List Char → ℕ → Prop where
  | mk {a b c d : Char} {w x y z : ℕ} : hexValue? a = some w → hexValue? b = some x → hexValue? c = some y →
      hexValue? d = some z → Hex [a, b, c, d] (((w * 16 + x) * 16 + y) * 16 + z)

def shortEscapes : List (Char × Char) :=
  [('"', '"'), ('\\', '\\'), ('/', '/'), ('b', Char.ofNat 8), ('f', Char.ofNat 12), ('n', '\n'), ('r', '\r'),
    ('t', '\t')]

def paired (lead trail : ℕ) : Char := Char.ofNat ((lead - 0xD800) * 1024 + (trail - 0xDC00) + 0x10000)

/-- What may stand behind a backslash. Half a surrogate pair stands for nothing. -/
inductive Escape : List Char → Char → Prop where
  | short {e c} : (e, c) ∈ shortEscapes → Escape [e] c
  | code {h n} : Hex h n → ¬ (0xD800 ≤ n ∧ n ≤ 0xDFFF) → Escape ('u' :: h) (Char.ofNat n)
  | pair {h h' lead trail} : Hex h lead → 0xD800 ≤ lead ∧ lead ≤ 0xDBFF → Hex h' trail →
      0xDC00 ≤ trail ∧ trail ≤ 0xDFFF →
        Escape ('u' :: (h ++ '\\' :: 'u' :: h')) (paired lead trail)

/-- The inside of a string literal, and the characters of the string. -/
inductive Denotes : List Char → List Char → Prop where
  | nil : Denotes [] []
  | plain {c s t} : c ≠ '"' → c ≠ '\\' → ¬ c.toNat < 32 → Denotes s t → Denotes (c :: s) (c :: t)
  | escape {e c s t} : Escape e c → Denotes s t → Denotes ('\\' :: (e ++ s)) (c :: t)

theorem utf8Size_of_hexValue? {c : Char} {n : ℕ} (h : hexValue? c = some n) : c.utf8Size = 1 := by
  have hc : c.toNat ≤ 102 := by
    simp only [hexValue?] at h
    split_ifs at h <;> omega
  have hval : c.val.toNat ≤ 127 := hc.trans (by decide)
  exact if_pos (UInt32.le_iff_toNat_le.2 hval)

theorem readHex_iff {s r : List Char} {n : ℕ} : readHex s = .ok (n, r) ↔ ∃ h, s = h ++ r ∧ Hex h n := by
  constructor
  · intro hread
    rw [readHex.eq_def] at hread
    split at hread
    · contradiction
    split at hread
    · split at hread
      · next ha hb hc hd =>
        obtain ⟨rfl, rfl⟩ := Prod.mk.inj (Except.ok.inj hread)
        exact ⟨[_, _, _, _], rfl, .mk ha hb hc hd⟩
      · contradiction
    · contradiction
  · rintro ⟨_, rfl, @⟨a, b, c, d, w, x, y, z, ha, hb, hc, hd⟩⟩
    have hwidth : ¬ Text.width ((a :: b :: c :: d :: r).take 4) < 4 := by
      simp [utf8Size_of_hexValue? ha, utf8Size_of_hexValue? hb, utf8Size_of_hexValue? hc, utf8Size_of_hexValue? hd]
    have hread : readHex (a :: b :: c :: d :: r) = .ok (((w * 16 + x) * 16 + y) * 16 + z, r) := by
      rw [readHex, if_neg hwidth]
      simp only [ha, hb, hc, hd]
    exact hread

theorem readTrailing_iff {lead : ℕ} {s r : List Char} {c : Char} : readTrailing lead s = .ok (c, r) ↔
    ∃ h trail, s = '\\' :: 'u' :: (h ++ r) ∧ Hex h trail ∧ (0xDC00 ≤ trail ∧ trail ≤ 0xDFFF) ∧
      c = paired lead trail := by
  constructor
  · intro hread
    rw [readTrailing.eq_def] at hread
    split at hread
    · contradiction
    · contradiction
    · obtain ⟨⟨trail, s'⟩, hhex, hrest⟩ := except_bind_eq_ok.1 hread
      obtain ⟨h, rfl, hh⟩ := readHex_iff.1 hhex
      dsimp only at hrest
      split at hrest
      · next hrange =>
        obtain ⟨rfl, rfl⟩ := Prod.mk.inj (Except.ok.inj hrest)
        exact ⟨h, trail, rfl, hh, hrange, rfl⟩
      · contradiction
    · contradiction
    · contradiction
  · rintro ⟨h, trail, rfl, hh, hrange, hc⟩
    rw [hc]
    have hhex : readHex (h ++ r) = .ok (trail, r) := readHex_iff.2 ⟨h, rfl, hh⟩
    refine except_bind_eq_ok.2 ⟨(trail, r), hhex, ?_⟩
    exact if_pos hrange

theorem readUnicode_iff {s r : List Char} {c : Char} : readUnicode s = .ok (c, r) ↔
    ∃ e, s = e ++ r ∧ Escape ('u' :: e) c := by
  constructor
  · intro hread
    obtain ⟨⟨n, t⟩, hhex, hrest⟩ := except_bind_eq_ok.1 hread
    obtain ⟨h, rfl, hh⟩ := readHex_iff.1 hhex
    dsimp only at hrest
    split at hrest
    · contradiction
    split at hrest
    · next hlead =>
      obtain ⟨h', trail, rfl, hh', htrail, hc⟩ := readTrailing_iff.1 hrest
      rw [hc]
      exact ⟨h ++ '\\' :: 'u' :: h', by simp, .pair hh hlead hh' htrail⟩
    · obtain ⟨rfl, rfl⟩ := Prod.mk.inj (Except.ok.inj hrest)
      exact ⟨h, rfl, .code hh (by omega)⟩
  · rintro ⟨e, rfl, he⟩
    generalize hcons : 'u' :: e = e' at he
    cases he with
    | short hmem =>
      obtain ⟨rfl, rfl⟩ := List.cons.inj hcons
      simp [shortEscapes] at hmem
    | @code h n hh hrange =>
      obtain ⟨-, rfl⟩ := List.cons.inj hcons
      refine except_bind_eq_ok.2 ⟨(n, r), readHex_iff.2 ⟨e, rfl, hh⟩, ?_⟩
      dsimp only
      rw [if_neg (by omega), if_neg (by omega)]
    | @pair h h' lead trail hh hlead hh' htrail =>
      obtain ⟨-, rfl⟩ := List.cons.inj hcons
      refine except_bind_eq_ok.2 ⟨(lead, '\\' :: 'u' :: (h' ++ r)), readHex_iff.2 ⟨h, by simp, hh⟩, ?_⟩
      dsimp only
      rw [if_neg (by omega), if_pos hlead]
      exact readTrailing_iff.2 ⟨h', trail, rfl, hh', htrail, rfl⟩

theorem readEscape_iff {s r : List Char} {c : Char} : readEscape s = .ok (c, r) ↔
    ∃ e, s = e ++ r ∧ Escape e c := by
  constructor
  · intro hread
    cases s with
    | nil => simp [readEscape, refuse] at hread
    | cons e s =>
      rw [readEscape.eq_def] at hread
      dsimp only at hread
      split at hread
      case h_9 =>
        obtain ⟨h, rfl, hh⟩ := readUnicode_iff.1 hread
        exact ⟨_, rfl, hh⟩
      case h_10 => simp [refuseNext] at hread
      all_goals
        obtain ⟨rfl, rfl⟩ := Prod.mk.inj (Except.ok.inj hread)
        exact ⟨[_], rfl, .short (by simp [shortEscapes])⟩
  · rintro ⟨e, rfl, he⟩
    cases he with
    | short hmem =>
      simp only [shortEscapes, List.mem_cons, Prod.mk.injEq, List.not_mem_nil, or_false] at hmem
      rcases hmem with ⟨rfl, rfl⟩ | ⟨rfl, rfl⟩ | ⟨rfl, rfl⟩ | ⟨rfl, rfl⟩ | ⟨rfl, rfl⟩ | ⟨rfl, rfl⟩ | ⟨rfl, rfl⟩ |
        ⟨rfl, rfl⟩ <;> rfl
    | code hh hrange => exact readUnicode_iff.2 ⟨_, rfl, .code hh hrange⟩
    | pair hh hlead hh' htrail => exact readUnicode_iff.2 ⟨_, rfl, .pair hh hlead hh' htrail⟩

theorem readChars_denotes {n : ℕ} {s t r : List Char} (h : readChars n s = .ok (t, r)) :
    ∃ b, s = b ++ '"' :: r ∧ Denotes b t := by
  induction n generalizing s t with
  | zero => simp [readChars, refuse] at h
  | succ n ih =>
    cases s with
    | nil => simp [readChars, refuse] at h
    | cons c s =>
      rw [readChars] at h
      split at h
      · next hquote =>
        obtain ⟨rfl, rfl⟩ := Prod.mk.inj (Except.ok.inj h)
        exact ⟨[], by rw [hquote]; rfl, .nil⟩
      next hquote =>
      split at h
      · next hback =>
        obtain ⟨⟨d, s'⟩, hescape, h⟩ := except_bind_eq_ok.1 h
        obtain ⟨⟨ds, s''⟩, hrest, h⟩ := except_bind_eq_ok.1 h
        obtain ⟨rfl, rfl⟩ := Prod.mk.inj (Except.ok.inj h)
        obtain ⟨e, rfl, he⟩ := readEscape_iff.1 hescape
        obtain ⟨b, rfl, hb⟩ := ih hrest
        exact ⟨c :: (e ++ b), by simp, hback ▸ .escape he hb⟩
      next hback =>
      split at h
      · simp [refuse] at h
      · next hcontrol =>
        obtain ⟨⟨ds, s'⟩, hrest, h⟩ := except_bind_eq_ok.1 h
        obtain ⟨rfl, rfl⟩ := Prod.mk.inj (Except.ok.inj h)
        obtain ⟨b, rfl, hb⟩ := ih hrest
        exact ⟨c :: b, rfl, .plain hquote hback hcontrol hb⟩

theorem Denotes.readChars {b t : List Char} (h : Denotes b t) (r : List Char) {n : ℕ} (hn : b.length < n) :
    readChars n (b ++ '"' :: r) = .ok (t, r) := by
  induction h generalizing n with
  | nil =>
    obtain ⟨n, rfl⟩ : ∃ k, n = k + 1 := ⟨n - 1, by omega⟩
    rfl
  | @plain c s t hquote hback hcontrol _ ih =>
    rw [List.length_cons] at hn
    obtain ⟨n, rfl⟩ : ∃ k, n = k + 1 := ⟨n - 1, by omega⟩
    rw [List.cons_append, Json.readChars, if_neg hquote, if_neg hback, if_neg hcontrol, ih (by omega)]
    rfl
  | @escape e c s t he _ ih =>
    rw [List.length_cons, List.length_append] at hn
    obtain ⟨n, rfl⟩ : ∃ k, n = k + 1 := ⟨n - 1, by omega⟩
    have hescape : readEscape (e ++ (s ++ '"' :: r)) = .ok (c, s ++ '"' :: r) := readEscape_iff.2 ⟨e, rfl, he⟩
    rw [List.cons_append, List.append_assoc, Json.readChars, if_neg (by decide), if_pos rfl, hescape]
    simp only [bind, Except.bind, ih (n := n) (by omega)]

/-- A string literal is read if and only if it is one, and gives its string. -/
theorem readString_iff {s r : List Char} {t : String} : readString s = .ok (t, r) ↔
    ∃ b, s = b ++ '"' :: r ∧ Denotes b t.toList := by
  constructor
  · intro h
    obtain ⟨⟨cs, r'⟩, hchars, h⟩ := except_bind_eq_ok.1 h
    obtain ⟨rfl, rfl⟩ := Prod.mk.inj (Except.ok.inj h)
    rw [String.toList_ofList]
    exact readChars_denotes hchars
  · rintro ⟨b, rfl, hb⟩
    have hchars := hb.readChars r (n := (b ++ '"' :: r).length + 1) (by simp)
    rw [readString, hchars]
    simp [bind, Except.bind]

/-! ### Literals that were written -/

theorem hexValue?_hexDigit : ∀ n < 16, hexValue? (hexDigit n) = some n := by decide

theorem hexDigit_plain : ∀ n < 16, hexDigit n ≠ '"' ∧ hexDigit n ≠ '\\' := by decide

theorem escaped_escape (c : Char) : Escaped '"' (escape c) := by
  simp only [escape]
  split_ifs with h₁ h₂ _ _ _ _ _ h
  · exact .pair (by decide) .nil
  · exact .pair (by decide) .nil
  · exact .pair (by decide) .nil
  · exact .pair (by decide) .nil
  · exact .pair (by decide) .nil
  · exact .pair (by decide) .nil
  · exact .pair (by decide) .nil
  · have hhigh := hexDigit_plain (c.toNat / 16) (by omega)
    have hlow := hexDigit_plain (c.toNat % 16) (by omega)
    exact .pair (by decide) (.plain (by decide) (by decide) (.plain (by decide) (by decide)
      (.plain hhigh.1 hhigh.2 (.plain hlow.1 hlow.2 .nil))))
  · exact .plain h₁ h₂ .nil

theorem escaped_flatMap (s : List Char) : Escaped '"' (s.flatMap escape) := by
  induction s with
  | nil => exact .nil
  | cons c s ih => exact (escaped_escape c).append ih

theorem denotes_escape (c : Char) {s t : List Char} (h : Denotes s t) : Denotes (escape c ++ s) (c :: t) := by
  have hshort : ∀ {e : Char}, (e, c) ∈ shortEscapes → Denotes ('\\' :: e :: s) (c :: t) :=
    fun hmem ↦ .escape (.short hmem) h
  simp only [escape]
  split_ifs with h₁ h₂ h₃ h₄ h₅ h₆ h₇ h₈
  · exact hshort (by simp [shortEscapes, h₁])
  · exact hshort (by simp [shortEscapes, h₂])
  · exact hshort (by simp [shortEscapes, h₃])
  · exact hshort (by simp [shortEscapes, h₄])
  · exact hshort (by simp [shortEscapes, h₅])
  · have hc : c = Char.ofNat 8 := by rw [← h₆, Char.ofNat_toNat]
    exact hshort (by simp [shortEscapes, hc])
  · have hc : c = Char.ofNat 12 := by rw [← h₇, Char.ofNat_toNat]
    exact hshort (by simp [shortEscapes, hc])
  · have hhex := Hex.mk (a := '0') (b := '0') (w := 0) (x := 0) rfl rfl (hexValue?_hexDigit (c.toNat / 16) (by omega))
      (hexValue?_hexDigit (c.toNat % 16) (by omega))
    have hcode : ((0 * 16 + 0) * 16 + c.toNat / 16) * 16 + c.toNat % 16 = c.toNat := by omega
    rw [hcode] at hhex
    have hescape := Denotes.escape (.code hhex (by omega)) h
    rwa [Char.ofNat_toNat] at hescape
  · exact .plain h₁ h₂ h₈ h

theorem denotes_flatMap (s : List Char) : Denotes (s.flatMap escape) s := by
  induction s with
  | nil => exact .nil
  | cons c s ih => exact denotes_escape c ih

theorem readString_quote (s r : List Char) :
    readString (s.flatMap escape ++ '"' :: r) = .ok (String.ofList s, r) := by
  refine readString_iff.2 ⟨s.flatMap escape, rfl, ?_⟩
  rw [String.toList_ofList]
  exact denotes_flatMap s

end Stencil.Json
