import Stencil.Decimal.Layout
import Stencil.Payload.Reader
import Stencil.Proofs.Decimal.Pattern
import Stencil.Proofs.Decimal.ShortestSearch
import Stencil.Proofs.Payload.Lexing
/-!
Numbers in payloads read back as they were written: whole numbers from their digits, and finite
binary64 numbers from the shortest decimal, in place or with an exponent. Each is one token.
-/

namespace Stencil

open Decimal

namespace Decimal

theorem natText_isDigit {n : ℕ} {c : Char} (h : c ∈ natText n) : c.isDigit = true :=
  Nat.isDigit_of_mem_toDigits (by norm_num) (by norm_num) h

theorem natText_ne_nil (n : ℕ) : natText n ≠ [] := Nat.toDigits_ne_nil

/-- A decimal that a number attracts reads back as the number. -/
theorem ofDecimal_of_attracts {d : Decimal.Dyadic} (hd : d.Canonical) (hpos : 0 < d.significand)
    (negative : Bool) {digits : ℕ} {exponent : ℤ} (hdigits : digits ≠ 0) (hlow : -400 ≤ exponent)
    (hhigh : exponent ≤ 400) (h : d.Attracts (digits * 10 ^ exponent)) :
    ofDecimal negative digits exponent = signed negative d.pattern := by
  have hval : ((digits * tenTo exponent.toNat : ℕ) : ℚ) / (tenTo (-exponent).toNat : ℕ) =
      digits * 10 ^ exponent := by
    rw [ten_zpow_split exponent, tenTo_eq, tenTo_eq]
    push_cast
    rw [mul_div_assoc]
  rw [← hval] at h
  rw [ofDecimal, if_neg hdigits, if_neg (by omega), if_neg (by omega),
    magnitudeBits_of_attracts hd hpos (tenTo_pos _) h]

end Decimal

namespace Payload

theorem digitsValue_eq (ds : List Char) : digitsValue ds = Nat.ofDigitChars 10 ds 0 := by
  rw [digitsValue, Nat.ofDigitChars_eq_foldl]
  congr
  funext n c
  rw [Nat.mul_comm]
  rfl

@[simp] theorem digitsValue_natText (n : ℕ) : digitsValue (natText n) = n := by
  rw [digitsValue_eq]
  exact Nat.ofDigitChars_ten_toDigits

theorem digitsValue_append (ds es : List Char) :
    digitsValue (ds ++ es) = digitsValue ds * 10 ^ es.length + digitsValue es := by
  simp only [digitsValue_eq]
  rw [Nat.ofDigitChars_append, Nat.ofDigitChars_eq_ofDigitChars_zero, Nat.mul_comm]

@[simp] theorem digitsValue_zeros (n : ℕ) : digitsValue (List.replicate n '0') = 0 := by
  rw [digitsValue_eq, Nat.ofDigitChars_replicate_zero, Nat.mul_zero]

def AllDigits (ds : List Char) : Prop := ∀ c ∈ ds, c.isDigit = true

theorem allDigits_natText (n : ℕ) : AllDigits (natText n) := fun _ h ↦ natText_isDigit h

theorem AllDigits.append {ds es : List Char} (h : AllDigits ds) (h' : AllDigits es) :
    AllDigits (ds ++ es) := fun c hc ↦ (List.mem_append.1 hc).elim (h c) (h' c)

theorem allDigits_zeros (n : ℕ) : AllDigits (List.replicate n '0') := fun c hc ↦ by
  rw [List.eq_of_mem_replicate hc]
  rfl

theorem takeWhile_isDigit {ds : List Char} (h : AllDigits ds) {r : List Char}
    (hr : ∀ c ∈ r.head?, c.isDigit = false) : (ds ++ r).takeWhile Char.isDigit = ds := by
  rw [List.takeWhile_append_of_pos h]
  cases r with
  | nil => simp
  | cons c r => simp [hr c rfl]

theorem dropWhile_isDigit {ds : List Char} (h : AllDigits ds) {r : List Char}
    (hr : ∀ c ∈ r.head?, c.isDigit = false) : (ds ++ r).dropWhile Char.isDigit = r := by
  rw [List.dropWhile_append_of_pos h]
  cases r with
  | nil => simp
  | cons c r => simp [hr c rfl]

theorem splitSign_digits {ds r : List Char} (h : AllDigits ds) (hne : ds ≠ []) :
    splitSign (ds ++ r) = (false, ds ++ r) := by
  obtain ⟨d, ds, rfl⟩ := List.exists_cons_of_ne_nil hne
  have hd := h d (by simp)
  simp only [splitSign, List.cons_append]
  split
  · next heq => simp only [List.cons.injEq] at heq; rw [heq.1] at hd; simp at hd
  · next heq => simp only [List.cons.injEq] at heq; rw [heq.1] at hd; simp at hd
  · rfl

def signText (negative : Bool) : List Char := if negative then ['-'] else []

theorem splitSign_signed (negative : Bool) {ds r : List Char} (h : AllDigits ds) (hne : ds ≠ []) :
    splitSign (signText negative ++ (ds ++ r)) = (negative, ds ++ r) := by
  cases negative with
  | true => rfl
  | false => exact (splitSign_digits h hne : splitSign (ds ++ r) = (false, ds ++ r))

theorem decimalValue_point (negative : Bool) {whole fraction : List Char} (hw : AllDigits whole)
    (hne : whole ≠ []) (hf : AllDigits fraction) :
    decimalValue (signText negative ++ (whole ++ '.' :: fraction)) =
      ofDecimal negative (digitsValue (whole ++ fraction)) (-(fraction.length : ℤ)) := by
  have hfrac : fraction.takeWhile Char.isDigit = fraction := by
    simpa using takeWhile_isDigit hf (r := []) (by simp)
  have hrest : fraction.dropWhile Char.isDigit = [] := by
    simpa using dropWhile_isDigit hf (r := []) (by simp)
  have hdot : ∀ c ∈ ('.' :: fraction).head?, c.isDigit = false := by simp
  simp only [decimalValue, splitSign_signed negative hw hne, takeWhile_isDigit hw hdot,
    dropWhile_isDigit hw hdot, hfrac, hrest]
  simp [splitSign, digitsValue]

/-- A number written with an exponent, and with a point when digits stand behind the first ones. -/
theorem decimalValue_exponent (negative : Bool) {whole fraction : List Char} (hw : AllDigits whole)
    (hne : whole ≠ []) (hf : AllDigits fraction) (e : ℤ) :
    decimalValue (signText negative ++ (whole ++ ((if fraction = [] then [] else '.' :: fraction) ++
      'e' :: (if e < 0 then '-' else '+') :: natText e.natAbs))) =
      ofDecimal negative (digitsValue (whole ++ fraction)) (e - fraction.length) := by
  have hexp : splitSign ((if e < 0 then '-' else '+') :: natText e.natAbs) =
      (decide (e < 0), natText e.natAbs) := by
    by_cases h : e < 0
    · simp [h, splitSign]
    · simp [h, splitSign]
  have hval : (if decide (e < 0) = true then -(e.natAbs : ℤ) else e.natAbs) = e := by
    by_cases h : e < 0
    · simp only [h, decide_true, if_true]; omega
    · simp only [h, decide_false, Bool.false_eq_true, if_false]; omega
  cases fraction with
  | nil =>
    have he : ∀ c ∈ ('e' :: (if e < 0 then '-' else '+') :: natText e.natAbs).head?,
        c.isDigit = false := by simp
    simp only [if_true, List.nil_append, decimalValue, splitSign_signed negative hw hne,
      takeWhile_isDigit hw he, dropWhile_isDigit hw he]
    set ds := (if e < 0 then '-' else '+') :: natText e.natAbs
    change ofDecimal negative (digitsValue (whole ++ [])) ((if (splitSign ds).1 = true then
      -(digitsValue (splitSign ds).2 : ℤ) else digitsValue (splitSign ds).2) -
        (([] : List Char).length : ℤ)) = _
    simp only [hexp, digitsValue_natText, hval]
  | cons f fs =>
    set tail := 'e' :: (if e < 0 then '-' else '+') :: natText e.natAbs with htail
    have he : ∀ c ∈ tail.head?, c.isDigit = false := by simp [htail]
    have hdot : ∀ c ∈ ('.' :: (f :: fs ++ tail)).head?, c.isDigit = false := by simp
    simp only [reduceCtorEq, if_false, List.cons_append] at hdot ⊢
    rw [decimalValue, splitSign_signed negative hw hne]
    simp only [takeWhile_isDigit hw hdot, dropWhile_isDigit hw hdot]
    rw [← List.cons_append, takeWhile_isDigit hf he, dropWhile_isDigit hf he, htail]
    simp only [List.drop_one, List.tail_cons, hexp, digitsValue_natText, hval]

theorem AllDigits.take {ds : List Char} (h : AllDigits ds) (n : ℕ) : AllDigits (ds.take n) :=
  fun c hc ↦ h c (List.mem_of_mem_take hc)

theorem AllDigits.drop {ds : List Char} (h : AllDigits ds) (n : ℕ) : AllDigits (ds.drop n) :=
  fun c hc ↦ h c (List.mem_of_mem_drop hc)

theorem decimalValue_positional (negative : Bool) (n : ℕ) (e : ℤ) :
    let point := ((natText n).length : ℤ) + e
    let parts := positional (natText n) point
    ∃ (digits : ℕ) (exponent : ℤ),
      decimalValue (signText negative ++
        (parts.1 ++ '.' :: if parts.2.isEmpty then ['0'] else parts.2)) =
          ofDecimal negative digits exponent ∧
      (digits : ℚ) * 10 ^ exponent = n * 10 ^ e ∧ (exponent = e ∨ exponent = -1) := by
  intro point parts
  have hall := allDigits_natText n
  have hne := natText_ne_nil n
  have hlen : 0 < (natText n).length := List.length_pos_iff.2 hne
  have hzero : AllDigits ['0'] := allDigits_zeros 1
  simp only [parts, positional]
  split
  · next h =>
    have hfrac : (List.replicate (-point).toNat '0' ++ natText n) ≠ [] := by simp [hne]
    rw [if_neg (by simpa using hfrac), decimalValue_point negative hzero (by simp)
      ((allDigits_zeros _).append hall)]
    refine ⟨_, _, rfl, ?_, .inl ?_⟩
    · rw [digitsValue_append, digitsValue_append, digitsValue_zeros, digitsValue_natText]
      have : -((List.replicate (-point).toNat '0' ++ natText n).length : ℤ) = e := by
        simp only [List.length_append, List.length_replicate]
        omega
      rw [this]
      simp [digitsValue]
    · simp only [List.length_append, List.length_replicate]
      omega
  · next h =>
    by_cases hp : (natText n).length ≤ point.toNat
    · rw [List.take_of_length_le hp, List.drop_eq_nil_of_le hp, List.isEmpty_nil, if_pos rfl,
        decimalValue_point negative (hall.append (allDigits_zeros _)) (by simp [hne]) hzero]
      refine ⟨_, _, rfl, ?_, .inr rfl⟩
      have he : e = ((point.toNat - (natText n).length : ℕ) : ℤ) := by omega
      rw [digitsValue_append, digitsValue_append, digitsValue_natText, digitsValue_zeros,
        List.length_replicate, he, zpow_natCast]
      simp only [digitsValue, List.length_singleton]
      norm_num
      ring
    · have hdrop : (natText n).drop point.toNat ≠ [] := by
        rw [Ne, List.drop_eq_nil_iff]
        exact hp
      have htake : (natText n).take point.toNat ≠ [] := by
        rw [Ne, List.take_eq_nil_iff]
        have : 0 < point.toNat := by omega
        simp [hne, this.ne']
      have hcount : point.toNat - (natText n).length = 0 := by omega
      rw [if_neg (by simpa using hdrop), hcount, List.replicate_zero, List.append_nil,
        decimalValue_point negative (hall.take _) htake (hall.drop _)]
      have he : -(((natText n).drop point.toNat).length : ℤ) = e := by
        rw [List.length_drop]
        omega
      refine ⟨_, _, rfl, ?_, .inl he⟩
      rw [List.take_append_drop, digitsValue_natText, he]

/-- Data text of a magnitude reads back as its shortest decimal. -/
theorem decimalValue_dataMagnitude (negative : Bool) (d : Decimal.Dyadic) :
    ∃ (digits : ℕ) (exponent : ℤ),
      decimalValue (signText negative ++ dataMagnitude d) = ofDecimal negative digits exponent ∧
      (digits : ℚ) * 10 ^ exponent = d.shortest.value ∧
      (exponent = d.shortest.exponent ∨ exponent = -1) := by
  have hall := allDigits_natText d.shortest.digits
  have hne := natText_ne_nil d.shortest.digits
  have hlen : 0 < (natText d.shortest.digits).length := List.length_pos_iff.2 hne
  simp only [dataMagnitude]
  split
  · exact decimalValue_positional negative d.shortest.digits d.shortest.exponent
  · set point := ((natText d.shortest.digits).length : ℤ) + d.shortest.exponent with hpoint
    have htake : (natText d.shortest.digits).take 1 ≠ [] := by
      rw [Ne, List.take_eq_nil_iff]
      simp [hne]
    have hone : (natText d.shortest.digits).length = 1 ↔ (natText d.shortest.digits).drop 1 = [] := by
      rw [List.drop_eq_nil_iff]
      omega
    simp only [hone, List.append_assoc]
    rw [decimalValue_exponent negative (hall.take 1) htake (hall.drop 1)]
    have he : point - 1 - (((natText d.shortest.digits).drop 1).length : ℤ) = d.shortest.exponent := by
      rw [List.length_drop]
      omega
    refine ⟨_, _, rfl, ?_, .inl he⟩
    rw [List.take_append_drop, digitsValue_natText, he]
    rfl

theorem decimalValue_dyadic (negative : Bool) {d : Decimal.Dyadic} (hd : d.Canonical) :
    decimalValue (signText negative ++ dataMagnitude d) = signed negative d.pattern := by
  obtain ⟨digits, exponent, hread, hval, hexp⟩ := decimalValue_dataMagnitude negative d
  rw [hread]
  rcases Nat.eq_zero_or_pos d.significand with h0 | hpos
  · have hzero : d.shortest.value = 0 := by simp [Decimal.Dyadic.shortest, h0, Shortest.value]
    have hd0 : digits = 0 := by
      rw [hzero, mul_eq_zero] at hval
      rcases hval with h | h
      · exact_mod_cast h
      · exact absurd h (zpow_ne_zero _ (by norm_num))
    rw [hd0, ofDecimal, if_pos rfl, Decimal.Dyadic.pattern, h0, if_pos (by norm_num)]
  · obtain ⟨hatt, hne, hlow, hhigh⟩ := Decimal.Dyadic.shortest_spec hd hpos
    have hdigits : digits ≠ 0 := by
      rintro rfl
      rw [Nat.cast_zero, zero_mul, Shortest.value, eq_comm, mul_eq_zero] at hval
      rcases hval with h | h
      · exact hne (by exact_mod_cast h)
      · exact zpow_ne_zero _ (by norm_num) h
    exact ofDecimal_of_attracts hd hpos negative hdigits (by omega) (by omega) (hval ▸ hatt)

/-- A finite number reads back as it was written. -/
theorem decimalValue_dataText {x : Float} (h : x.isFinite = true) :
    ∃ s, dataText? x = some s ∧ decimalValue s = x := by
  obtain ⟨d, hd, hcan, hx⟩ := exists_dyadic h
  refine ⟨signText d.negative ++ dataMagnitude d, by simp [dataText?, hd, signText], ?_⟩
  rw [decimalValue_dyadic d.negative hcan, hx]

/-- A number without its sign: digits in front, and nothing that ends before the text does. -/
structure IsNumeral (w : List Char) : Prop where
  digit : ∃ c s, w = c :: s ∧ c.isDigit = true
  whole : ∀ r, Apart r → numberPart (w ++ r) = w

theorem isWordRest_of_isDigit (c : Char) (h : c.isDigit = true) : isWordRest c = true := by
  simp [isWordRest, h]

theorem fractionPart_apart {r : List Char} (hr : Apart r) : fractionPart r = [] := by
  cases r with
  | nil => rfl
  | cons c r =>
    have hc := (hr c rfl).2
    unfold fractionPart
    split
    · next heq => exact absurd (List.cons.inj heq).1 hc
    · rfl

theorem exponentPart_apart {r : List Char} (hr : Apart r) : exponentPart r = [] := by
  cases r with
  | nil => rfl
  | cons c r =>
    have hc := (hr c rfl).1
    have hne : ¬ (c = 'e' ∨ c = 'E') := by
      rintro (rfl | rfl) <;> revert hc <;> decide
    exact if_neg hne

theorem numberPart_eq {ds r : List Char} (hds : AllDigits ds) (hne : ds ≠ [])
    (hr : ∀ c ∈ r.head?, c.isDigit = false) :
    numberPart (ds ++ r) = ds ++ fractionPart r ++ exponentPart (r.drop (fractionPart r).length) := by
  obtain ⟨d, ds, rfl⟩ := List.exists_cons_of_ne_nil hne
  unfold numberPart
  rw [takeWhile_isDigit hds hr, dropWhile_isDigit hds hr]

theorem Apart.noDigit {r : List Char} (hr : Apart r) : ∀ c ∈ r.head?, c.isDigit = false := fun c hc ↦ by
  cases h : c.isDigit with
  | false => rfl
  | true =>
    have := (hr c hc).1
    rw [isWordRest_of_isDigit c h] at this
    contradiction

theorem digit_head {ds : List Char} (h : AllDigits ds) (hne : ds ≠ []) :
    ∃ c s, ds = c :: s ∧ c.isDigit = true := by
  obtain ⟨d, ds, rfl⟩ := List.exists_cons_of_ne_nil hne
  exact ⟨d, ds, rfl, h d (by simp)⟩

theorem isNumeral_digits {ds : List Char} (h : AllDigits ds) (hne : ds ≠ []) : IsNumeral ds where
  digit := digit_head h hne
  whole r hr := by
    rw [numberPart_eq h hne hr.noDigit, fractionPart_apart hr, List.length_nil, List.drop_zero,
      exponentPart_apart hr, List.append_nil, List.append_nil]

theorem digit_head_append {ds : List Char} (h : AllDigits ds) (hne : ds ≠ []) (s : List Char) :
    ∃ c s', ds ++ s = c :: s' ∧ c.isDigit = true := by
  obtain ⟨c, s', rfl, hc⟩ := digit_head h hne
  exact ⟨c, s' ++ s, rfl, hc⟩

theorem fractionPart_point (s : List Char) : fractionPart ('.' :: s) = match s.takeWhile Char.isDigit with
    | [] => []
    | ds => '.' :: ds := rfl

theorem fractionPart_digits {fs r : List Char} (h : AllDigits fs) (hne : fs ≠ [])
    (hr : ∀ c ∈ r.head?, c.isDigit = false) : fractionPart ('.' :: (fs ++ r)) = '.' :: fs := by
  rw [fractionPart_point, takeWhile_isDigit h hr]
  obtain ⟨f, fs, rfl⟩ := List.exists_cons_of_ne_nil hne
  rfl

theorem isNumeral_point {ds fs : List Char} (h : AllDigits ds) (hne : ds ≠ []) (hf : AllDigits fs)
    (hfne : fs ≠ []) : IsNumeral (ds ++ '.' :: fs) where
  digit := digit_head_append h hne _
  whole r hr := by
    rw [List.append_assoc, List.cons_append, numberPart_eq h hne (by simp),
      fractionPart_digits hf hfne hr.noDigit, ← List.cons_append, List.drop_left,
      exponentPart_apart hr, List.append_nil]

theorem exponentPart_signed (negative : Bool) (s : List Char) :
    exponentPart ('e' :: (if negative then '-' else '+') :: s) = match s.takeWhile Char.isDigit with
      | [] => []
      | ds => 'e' :: (if negative then '-' else '+') :: ds := by cases negative <;> rfl

theorem exponentPart_digits {ds r : List Char} (negative : Bool) (h : AllDigits ds) (hne : ds ≠ [])
    (hr : ∀ c ∈ r.head?, c.isDigit = false) :
    exponentPart ('e' :: (if negative then '-' else '+') :: (ds ++ r)) =
      'e' :: (if negative then '-' else '+') :: ds := by
  rw [exponentPart_signed, takeWhile_isDigit h hr]
  obtain ⟨d, ds, rfl⟩ := List.exists_cons_of_ne_nil hne
  rfl

theorem isNumeral_exponent {ds fs es : List Char} (negative : Bool) (h : AllDigits ds) (hne : ds ≠ [])
    (hf : AllDigits fs) (he : AllDigits es) (hene : es ≠ []) :
    IsNumeral (ds ++ ((if fs = [] then [] else '.' :: fs) ++
      'e' :: (if negative then '-' else '+') :: es)) where
  digit := digit_head_append h hne _
  whole r hr := by
    have hexp := exponentPart_digits negative he hene hr.noDigit
    by_cases hfs : fs = []
    · rw [if_pos hfs, List.nil_append, List.append_assoc, numberPart_eq h hne (by simp)]
      have hnone : fractionPart ('e' :: (if negative then '-' else '+') :: es ++ r) = [] := rfl
      rw [hnone, List.length_nil, List.drop_zero, List.cons_append, List.cons_append, hexp,
        List.append_nil]
    · rw [if_neg hfs, List.append_assoc, List.append_assoc, numberPart_eq h hne (by simp)]
      have hfrac := fractionPart_digits (r := 'e' :: (if negative then '-' else '+') :: es ++ r) hf hfs
        (by simp)
      rw [List.cons_append, hfrac, ← List.cons_append, List.drop_left, List.cons_append,
        List.cons_append, hexp]
      simp

theorem isDigit_range {c : Char} (h : c.isDigit = true) : 48 ≤ c.toNat ∧ c.toNat ≤ 57 := by
  simpa [Char.isDigit, UInt32.le_iff_toNat_le] using h

/-- A numeral is a token, with a minus sign in front or without. -/
theorem isLetter_range {c : Char} (h : isLetter c = true) :
    65 ≤ c.toNat ∧ c.toNat ≤ 90 ∨ 97 ≤ c.toNat ∧ c.toNat ≤ 122 := by
  change (decide (65 ≤ c.val ∧ c.val ≤ 90) || (decide (97 ≤ c.val) && decide (c.val ≤ 122))) = true at h
  simpa [UInt32.le_iff_toNat_le] using h

theorem scan_minus (s : List Char) : scan '-' s = match numberPart s with
    | [] => (none, [])
    | w => (some (.number ('-' :: w)), w) := rfl

theorem begins_number (negative : Bool) {w r : List Char} (hw : IsNumeral w) (hr : Apart r) :
    Begins (.number (signText negative ++ w)) (signText negative ++ w) r := by
  have hpart := hw.whole r hr
  obtain ⟨c, s, rfl, hc⟩ := hw.digit
  cases negative with
  | true =>
    refine ⟨'-', c :: s, rfl, rfl, ?_⟩
    rw [scan_minus, hpart]
    rfl
  | false =>
    have hrange := isDigit_range hc
    have hgap : isGap c = false := by
      simp only [isGap, Bool.or_eq_false_iff, beq_eq_false_iff_ne]
      refine ⟨⟨⟨?_, ?_⟩, ?_⟩, ?_⟩ <;> rintro rfl <;> revert hc <;> decide
    have hstart : isWordStart c = false := by
      simp only [isWordStart, Bool.or_eq_false_iff, beq_eq_false_iff_ne]
      refine ⟨Bool.eq_false_iff.2 fun h ↦ ?_, ?_⟩
      · have := isLetter_range h
        omega
      · rintro rfl; revert hc; decide
    have hmark : isMark c = false := by
      simp only [isMark, Bool.or_eq_false_iff, beq_eq_false_iff_ne]
      refine ⟨?_, ?_⟩ <;> rintro rfl <;> revert hc <;> decide
    have hquote : ¬ (c = '"' ∨ c = '\'') := by rintro (rfl | rfl) <;> revert hc <;> decide
    refine ⟨c, s, rfl, hgap, ?_⟩
    unfold scan
    rw [if_neg (by simp [hstart]), if_neg (by simp [hmark]), if_neg hquote, if_pos hc,
      ← List.cons_append, hpart]
    rfl

theorem isNumeral_positional (n : ℕ) (point : ℤ) :
    let parts := positional (natText n) point
    IsNumeral (parts.1 ++ '.' :: if parts.2.isEmpty then ['0'] else parts.2) := by
  intro parts
  have hall := allDigits_natText n
  have hne := natText_ne_nil n
  have hzero : AllDigits ['0'] := allDigits_zeros 1
  simp only [parts, positional]
  split
  · refine isNumeral_point hzero (by simp) ?_ ?_
    · split
      · exact hzero
      · exact (allDigits_zeros _).append hall
    · split
      · simp
      · simp [hne]
  · next h =>
    have hpos : point.toNat ≠ 0 := by omega
    refine isNumeral_point ((hall.take _).append (allDigits_zeros _)) (by simp [hne, hpos]) ?_ ?_
    · split
      · exact hzero
      · exact hall.drop _
    · split
      · simp
      · next hempty => simpa using hempty

theorem isNumeral_dataMagnitude (d : Decimal.Dyadic) : IsNumeral (dataMagnitude d) := by
  simp only [dataMagnitude]
  split
  · exact isNumeral_positional _ _
  · have hall := allDigits_natText d.shortest.digits
    have hne := natText_ne_nil d.shortest.digits
    have hlen : 0 < (natText d.shortest.digits).length := List.length_pos_iff.2 hne
    have hone : (natText d.shortest.digits).length = 1 ↔ (natText d.shortest.digits).drop 1 = [] := by
      rw [List.drop_eq_nil_iff]
      omega
    set e := ((natText d.shortest.digits).length : ℤ) + d.shortest.exponent - 1
    have h := isNumeral_exponent (decide (e < 0)) (hall.take 1) (by simp [hne]) (hall.drop 1)
      (allDigits_natText e.natAbs) (natText_ne_nil _)
    simpa only [hone, decide_eq_true_eq, List.append_assoc] using h

/-- Data text of a finite number has a point or an exponent. -/
theorem isWhole_dataMagnitude (negative : Bool) (d : Decimal.Dyadic) :
    isWhole (signText negative ++ dataMagnitude d) = false := by
  have hmem : '.' ∈ dataMagnitude d ∨ 'e' ∈ dataMagnitude d := by
    simp only [dataMagnitude]
    split
    · exact .inl (by simp)
    · exact .inr (by simp)
  rw [isWhole, List.all_eq_false]
  rcases hmem with h | h
  · exact ⟨_, List.mem_append_right _ h, by simp⟩
  · exact ⟨_, List.mem_append_right _ h, by simp⟩

theorem numberValue_dataText {x : Float} (h : x.isFinite = true) :
    ∃ s, dataText? x = some s ∧ (∀ r, Apart r → Begins (.number s) s r) ∧
      ∀ span, numberValue s span = .ok (.float x) := by
  obtain ⟨d, hd, hcan, hx⟩ := exists_dyadic h
  refine ⟨signText d.negative ++ dataMagnitude d, by simp [dataText?, hd, signText],
    fun r hr ↦ begins_number d.negative (isNumeral_dataMagnitude d) hr, fun span ↦ ?_⟩
  have hval : decimalValue (signText d.negative ++ dataMagnitude d) = x := by
    rw [decimalValue_dyadic d.negative hcan, hx]
  simp only [numberValue, isWhole_dataMagnitude, Bool.false_and, hval, h, if_true, Bool.false_eq_true,
    if_false]

theorem intText_eq (n : ℤ) : intText n = signText (decide (n < 0)) ++ natText n.natAbs := by
  by_cases h : n < 0
  · simp [intText, signText, h]
  · simp [intText, signText, h]

theorem begins_int (n : ℤ) {r : List Char} (hr : Apart r) : Begins (.number (intText n)) (intText n) r := by
  rw [intText_eq]
  exact begins_number _ (isNumeral_digits (allDigits_natText _) (natText_ne_nil _)) hr

theorem isWhole_digits {ds : List Char} (h : AllDigits ds) (negative : Bool) :
    isWhole (signText negative ++ ds) = true := by
  have hd : ds.all (fun c ↦ !(c == '.' || c == 'e' || c == 'E')) = true := by
    rw [List.all_eq_true]
    intro c hc
    have := h c hc
    have h₁ : c ≠ '.' := by rintro rfl; simp at this
    have h₂ : c ≠ 'e' := by rintro rfl; simp at this
    have h₃ : c ≠ 'E' := by rintro rfl; simp at this
    simp [h₁, h₂, h₃]
  cases negative <;> simp [isWhole, signText] at hd ⊢ <;> exact hd

theorem numberValue_intText {n : ℤ} (h : Json.fitsInt n = true) (span : Span) :
    numberValue (intText n) span = .ok (.int n) := by
  have hsplit := splitSign_signed (decide (n < 0)) (r := []) (allDigits_natText n.natAbs)
    (natText_ne_nil _)
  have hval : (if decide (n < 0) = true then -(n.natAbs : ℤ) else n.natAbs) = n := by
    by_cases hn : n < 0
    · simp only [hn, decide_true, if_true]; omega
    · simp only [hn, decide_false, Bool.false_eq_true, if_false]; omega
  rw [List.append_nil] at hsplit
  rw [intText_eq, numberValue, hsplit]
  simp only [digitsValue_natText, hval, isWhole_digits (allDigits_natText _), h, Bool.and_self, if_true]

end Payload

end Stencil
