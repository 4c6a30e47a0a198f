import Mathlib.Data.List.TakeWhile
import Stencil.Command.Figures
import Stencil.Proofs.Command.Arithmetic
import Stencil.Proofs.Decimal.Whole
/-!
Whole numbers in pictures without a point. The digits of the nearest binary64 number are shown, filled up with zeros and
put into groups from the right; they are those of the number itself exactly when it is a binary64 number.
-/

namespace Stencil

namespace Decimal

/-- Digits in groups counted from the right: every group but the first has the full size, and the first is no longer. -/
structure Grouping (size : ℕ) (digits first : List Char) (rest : List (List Char)) : Prop where
  joined : (first :: rest).flatten = digits
  filled : first ≠ []
  single : size = 0 → rest = []
  short : 0 < size → first.length ≤ size
  full : 0 < size → ∀ g ∈ rest, g.length = size

/-- A picture without a point: a run of marks and the text around it, and the size of its groups. -/
structure Mask where
  front : List Char
  marks : List Char
  back : List Char
  groupSize : ℕ

/-- A text that is such a picture. The size of groups is what stands behind the last comma; without a comma there are no
groups. -/
structure Mask.Spells (m : Mask) (text : String) : Prop where
  text : text.toList = m.front ++ m.marks ++ m.back
  front : ∀ c ∈ m.front, Picture.isMark c = false
  back : ∀ c ∈ m.back, Picture.isMark c = false
  marks : ∀ c ∈ m.marks, c = '#' ∨ c = '0' ∨ c = ','
  filled : m.marks ≠ []
  groups : (∃ u w, m.marks = u ++ ',' :: w ∧ ',' ∉ w ∧ m.groupSize = w.length) ∨ ',' ∉ m.marks ∧ m.groupSize = 0

/-! ### Groups -/

variable {size : ℕ} {digits first : List Char} {rest : List (List Char)} {separator : Char}

theorem Grouping.length (h : Grouping size digits first rest) (hsize : 0 < size) :
    digits.length = first.length + rest.length * size := by
  have hrest : (rest.map List.length).sum = rest.length * size := by
    rw [List.map_congr_left (h.full hsize), List.map_const', List.sum_replicate_nat]
  rw [← h.joined, List.flatten_cons, List.length_append, List.length_flatten, hrest]

theorem Picture.grouped_eq (size : ℕ) (separator : Char) (h : digits ≠ []) :
    ∃ first rest, Grouping size digits first rest ∧ grouped size separator digits = [separator].intercalate (first :: rest) := by
  induction digits with
  | nil => contradiction
  | cons d ds ih =>
    cases ds with
    | nil => exact ⟨[d], [], ⟨rfl, by simp, fun _ ↦ rfl, id, by simp⟩, rfl⟩
    | cons e ds =>
      obtain ⟨first, rest, hgroups, heq⟩ := ih (by simp)
      rw [grouped.eq_3 _ _ _ _ (by simp), heq]
      by_cases hcut : 0 < size ∧ (e :: ds).length % size = 0
      · -- what is behind is made of whole groups, so its first group is whole
        have hfirst : first.length = size := by
          have hlength := hgroups.length hcut.1
          have hshort := hgroups.short hcut.1
          have hpos := List.length_pos_iff.2 hgroups.filled
          have hmod := hcut.2
          rw [hlength, Nat.add_mul_mod_self_right] at hmod
          rcases hshort.lt_or_eq with hlt | heq
          · rw [Nat.mod_eq_of_lt hlt] at hmod
            omega
          · exact heq
        rw [if_pos hcut]
        refine ⟨[d], first :: rest, ⟨?_, by simp, by omega, fun _ ↦ hcut.1, fun _ g hg ↦ ?_⟩, ?_⟩
        · rw [List.flatten_cons, hgroups.joined]
          rfl
        · rcases List.mem_cons.1 hg with rfl | hg
          · exact hfirst
          · exact hgroups.full hcut.1 g hg
        · rw [List.intercalate_cons_cons]
          rfl
      · rw [if_neg hcut]
        refine ⟨d :: first, rest, ⟨?_, by simp, hgroups.single, fun hsize ↦ ?_, hgroups.full⟩, ?_⟩
        · rw [List.flatten_cons, List.cons_append, ← List.flatten_cons, hgroups.joined]
        · have hlength := hgroups.length hsize
          have hshort := hgroups.short hsize
          have hmod : (e :: ds).length % size ≠ 0 := fun h ↦ hcut ⟨hsize, h⟩
          have hne : first.length ≠ size := by
            intro heq
            rw [hlength, heq, Nat.add_mul_mod_self_right, Nat.mod_self] at hmod
            exact hmod rfl
          rw [List.length_cons]
          omega
        · cases rest with
          | nil => rw [List.intercalate_singleton, List.intercalate_singleton]
          | cons g rest => rw [List.intercalate_cons_cons, List.intercalate_cons_cons, List.cons_append, List.cons_append]

theorem Grouping.flatten_splitOn (h : Grouping size digits first rest) (hseparator : separator ∉ digits) :
    (([separator].intercalate (first :: rest)).splitOn separator).flatten = digits := by
  rw [List.splitOn_intercalate _ _ (List.cons_ne_nil _ _), h.joined]
  intro g hg hmem
  rw [← h.joined] at hseparator
  exact hseparator (List.mem_flatten.2 ⟨g, hg, hmem⟩)

theorem Grouping.unique {digits' first' : List Char} {rest' : List (List Char)} (h : Grouping size digits first rest)
    (h' : Grouping size digits' first' rest') (hd : separator ∉ digits) (hd' : separator ∉ digits')
    (heq : [separator].intercalate (first :: rest) = [separator].intercalate (first' :: rest')) : digits = digits' := by
  rw [← h.flatten_splitOn hd, ← h'.flatten_splitOn hd', heq]

/-! ### Zeros in front -/

theorem natText_padded_inj {count u v : ℕ} (h : List.leftpad count '0' (natText u) = List.leftpad count '0' (natText v)) :
    u = v := by
  have hvalue (n : ℕ) : Nat.ofDigitChars 10 (List.leftpad count '0' (natText n)) 0 = n := by
    rw [List.leftpad, Nat.ofDigitChars_append, Nat.ofDigitChars_replicate_zero, Nat.mul_zero, natText,
      Nat.ofDigitChars_ten_toDigits]
  rw [← hvalue u, ← hvalue v, h]

theorem isDigit_of_mem_padded {count n : ℕ} {c : Char} (h : c ∈ List.leftpad count '0' (natText n)) : c.isDigit = true := by
  rcases List.mem_append.1 h with h | h
  · rw [List.eq_of_mem_replicate h]
    rfl
  · exact Nat.isDigit_of_mem_toDigits (by decide) (by decide) h

theorem exists_ne_zero_of_natText {n : ℕ} (h : n ≠ 0) : ∃ c ∈ natText n, c ≠ '0' := by
  by_contra hall
  push Not at hall
  have hzeros := List.eq_replicate_of_mem hall
  have hvalue : Nat.ofDigitChars 10 (natText n) 0 = n := Nat.ofDigitChars_ten_toDigits
  rw [hzeros, Nat.ofDigitChars_replicate_zero, Nat.mul_zero] at hvalue
  exact h hvalue.symm

theorem padZeros_eq_leftpad (count : ℕ) (digits : List Char) : padZeros count digits = List.leftpad count '0' digits := rfl

theorem Separators.not_mem_padded (tag? : Option String) {count n : ℕ} :
    (Separators.ofTag tag?).group ∉ List.leftpad count '0' (natText n) := by
  intro h
  have hdigit := isDigit_of_mem_padded h
  simp only [Separators.ofTag] at hdigit
  split_ifs at hdigit <;> exact absurd hdigit (by decide)

/-! ### Pictures -/

variable {m : Mask} {text : String}

theorem Mask.Spells.mark (h : m.Spells text) : ∀ c ∈ m.marks, Picture.isMark c = true ∧ c.utf8Size = 1 ∧ c ≠ '.' := by
  intro c hc
  rcases h.marks c hc with rfl | rfl | rfl <;> decide

theorem Picture.cut_eq {front marks back : List Char} (hfront : ∀ c ∈ front, isMark c = false)
    (hmarks : ∀ c ∈ marks, isMark c = true) (hback : ∀ c ∈ back, isMark c = false) (hne : marks ≠ []) :
    cut (front ++ marks ++ back) = (front, marks, back) := by
  have hbefore : (front ++ marks ++ back).takeWhile (fun c ↦ !isMark c) = front := by
    rw [List.append_assoc, List.takeWhile_append_of_pos (by simpa using hfront)]
    obtain ⟨c, ms, rfl⟩ := List.exists_cons_of_ne_nil hne
    rw [List.cons_append, List.takeWhile_cons_of_neg (by simp [hmarks]), List.append_nil]
  have hfrom : (front ++ marks ++ back).dropWhile (fun c ↦ !isMark c) = marks ++ back := by
    rw [List.append_assoc, List.dropWhile_append_of_pos (by simpa using hfront)]
    obtain ⟨c, ms, rfl⟩ := List.exists_cons_of_ne_nil hne
    rw [List.cons_append, List.dropWhile_cons_of_neg (by simp [hmarks])]
  have hbehind : ((marks ++ back).reverse.takeWhile (fun c ↦ !isMark c)).reverse = back := by
    rw [List.reverse_append, List.takeWhile_append_of_pos (by simpa using hback)]
    obtain ⟨c, ms, hlast⟩ := List.exists_cons_of_ne_nil (List.reverse_ne_nil_iff.2 hne)
    have hc : c ∈ marks := List.mem_reverse.1 (hlast ▸ List.mem_cons_self)
    rw [hlast, List.takeWhile_cons_of_neg (by simp [hmarks c hc]), List.append_nil, List.reverse_reverse]
  simp only [cut, hbefore, hfrom, hbehind, List.length_append, Nat.add_sub_cancel, List.take_left]

theorem width_eq_length {s : List Char} (h : ∀ c ∈ s, c.utf8Size = 1) : Text.width s = s.length := by
  induction s with
  | nil => rfl
  | cons c s ih =>
    rw [Text.width_cons, h c List.mem_cons_self, ih fun x hx ↦ h x (List.mem_cons_of_mem _ hx), List.length_cons]
    exact Nat.add_comm _ _

theorem Mask.Spells.groupSize (h : m.Spells text) : ((Picture.behindComma? m.marks).map Text.width).getD 0 = m.groupSize := by
  rcases h.groups with ⟨u, w, hmarks, hw, hsize⟩ | ⟨hnone, hsize⟩
  · have hbehind : Picture.behindComma? m.marks = some w := by
      have hw' : ∀ c ∈ w.reverse, (c != ',') = true := by
        intro c hc
        rw [bne_iff_ne]
        rintro rfl
        exact hw (List.mem_reverse.1 hc)
      rw [Picture.behindComma?, if_pos (by simp [hmarks]), hmarks, List.reverse_append, List.reverse_cons, List.append_assoc,
        List.takeWhile_append_of_pos hw', List.singleton_append, List.takeWhile_cons_of_neg (by decide), List.append_nil,
        List.reverse_reverse]
    rw [hbehind, Option.map_some, Option.getD_some, hsize]
    refine width_eq_length fun c hc ↦ (h.mark c ?_).2.1
    rw [hmarks]
    exact List.mem_append_right _ (List.mem_cons_of_mem _ hc)
  · rw [Picture.behindComma?, if_neg (by simpa using hnone), hsize]
    rfl

theorem Mask.Spells.parse (h : m.Spells text) :
    Picture.parse text = .ok ⟨m.front, m.back, max (m.marks.count '0') 1, m.groupSize, 0, 0⟩ := by
  have hcut : Picture.cut text.toList = (m.front, m.marks, m.back) := by
    rw [h.text]
    exact Picture.cut_eq h.front (fun c hc ↦ (h.mark c hc).1) h.back h.filled
  have hpoint : ∀ c ∈ m.marks, (c != '.') = true := fun c hc ↦ bne_iff_ne.2 (h.mark c hc).2.2
  have hwhole := List.takeWhile_eq_self_iff.2 hpoint
  have hplaces := List.dropWhile_eq_nil_iff.2 hpoint
  have hsize := h.groupSize
  obtain ⟨c, ms, hmarks⟩ := List.exists_cons_of_ne_nil h.filled
  rw [Picture.parse, hcut]
  rw [hmarks] at hwhole hplaces hsize ⊢
  simp only [hwhole, hplaces, hsize]
  rfl

theorem Picture.text_ofInt {p : Picture} (hleast : p.leastPlaces = 0) (hmost : p.mostPlaces = 0) {n : ℤ}
    (hsize : n.natAbs.log2 < 64) (separators : Separators) : p.text separators (ofInt n) =
      (if n < 0 then ['-'] else []) ++ p.front ++
        grouped p.groupSize separators.group (List.leftpad p.leastWhole '0' (natText (rounded n.natAbs))) ++ p.back := by
  have hnegative : (decide (ofInt n < 0) && ((List.leftpad p.leastWhole '0' (natText (rounded n.natAbs))).any (· != '0') ||
      ([] : List Char).any (· != '0'))) = decide (n < 0) := by
    rw [decide_eq_decide.2 (ofInt_lt_zero hsize)]
    by_cases hn : n < 0
    · obtain ⟨c, hc, hne⟩ := exists_ne_zero_of_natText (rounded_ne_zero (Int.natAbs_ne_zero.2 hn.ne))
      have hany : (List.leftpad p.leastWhole '0' (natText (rounded n.natAbs))).any (· != '0') = true :=
        List.any_eq_true.2 ⟨c, List.mem_append_right _ hc, bne_iff_ne.2 hne⟩
      rw [hany, Bool.true_or, Bool.and_true]
    · rw [decide_eq_false hn, Bool.false_and]
  rw [Picture.text, hmost, hleast, fixed_ofInt hsize]
  simp only [trimPlaces, padZeros_eq_leftpad, hnegative, decide_eq_true_eq, List.isEmpty_nil, if_true, List.append_nil]

end Decimal

theorem Json.log2_lt_of_fitsInt {n : ℤ} (h : Json.fitsInt n = true) : n.natAbs.log2 < 64 := by
  have hmin : Json.minInt = -2 ^ 63 := rfl
  have hmax : Json.maxInt = 2 ^ 63 - 1 := rfl
  simp only [Json.fitsInt, hmin, hmax, Bool.and_eq_true, decide_eq_true_eq] at h
  rcases Nat.eq_zero_or_pos n.natAbs with hzero | hpos
  · rw [hzero]
    decide
  · rw [Nat.log2_lt hpos.ne']
    omega

open Decimal

/-- What a command shows of a whole number in a picture without a point: the sign of the number, and the digits of a value
filled up with zeros and put into groups. -/
def Command.Prints (c : Command) (m : Mask) (n : ℤ) (value : ℕ) (text : String) : Prop :=
  ∃ first rest, Grouping m.groupSize (List.leftpad (max (m.marks.count '0') 1) '0' (Nat.toDigits 10 value)) first rest ∧
    text = (c.str? "prefix").getD "" ++ String.ofList ((if n < 0 then ['-'] else []) ++ m.front ++
      [(Separators.ofTag (c.str? "lang")).group].intercalate (first :: rest) ++ m.back) ++ (c.str? "suffix").getD ""

namespace Command

variable {c : Command} {m : Mask} {n : ℤ} {u v : ℕ} {text : String}

theorem Prints.unique (hu : c.Prints m n u text) (hv : c.Prints m n v text) : u = v := by
  obtain ⟨first, rest, hgroups, htext⟩ := hu
  obtain ⟨first', rest', hgroups', htext'⟩ := hv
  rw [htext] at htext'
  have heq := congrArg String.toList htext'
  simp only [String.toList_append, String.toList_ofList, List.append_cancel_left_eq, List.append_cancel_right_eq] at heq
  exact natText_padded_inj
    (hgroups.unique hgroups' (Separators.not_mem_padded _) (Separators.not_mem_padded _) heq)

end Command

namespace Handler

open Run

variable {s : Selection} {r : RunState} {m : Mask} {n : ℤ}

theorem numberText_ofInt {c : Command} (hfits : Json.fitsInt n = true) (hmultiplier : c.number? "multiplier" = .ok none)
    (hsummand : c.number? "summand" = .ok none) (hpicture : m.Spells (c.pictureText (.int n))) :
    ∃ text, c.numberText (.int n) = .ok text ∧ c.Prints m n (rounded n.natAbs) text := by
  have hadjusted : c.adjusted (.int n) = .ok (.int n) := by
    rw [Command.adjusted, hmultiplier, hsummand]
    rfl
  have hdigits := Picture.text_ofInt (p := ⟨m.front, m.back, max (m.marks.count '0') 1, m.groupSize, 0, 0⟩) rfl rfl
    (Json.log2_lt_of_fitsInt hfits) (Separators.ofTag (c.str? "lang"))
  have hne : List.leftpad (max (m.marks.count '0') 1) '0' (natText (rounded n.natAbs)) ≠ [] :=
    List.append_ne_nil_of_right_ne_nil _ Nat.toDigits_ne_nil
  obtain ⟨first, rest, hgroups, hgrouped⟩ := Picture.grouped_eq m.groupSize (Separators.ofTag (c.str? "lang")).group hne
  refine ⟨_, ?_, first, rest, hgroups, rfl⟩
  rw [← hgrouped, ← hdigits]
  simp only [Command.numberText, hadjusted, bind, Except.bind, hpicture.parse]
  rfl

/-- A whole number of 64 bits in a picture without a point: shown are the sign and, filled up with zeros and put into
groups, the digits of a binary64 number that no other is nearer to. They are the digits of the number itself exactly when
it is a binary64 number. -/
theorem number_digits (hfits : Json.fitsInt n = true) (hvalue : (s.value? "value").on r = (.ok (some (.leaf (.int n))), r))
    (hmultiplier : s.command.number? "multiplier" = .ok none) (hsummand : s.command.number? "summand" = .ok none)
    (hpicture : m.Spells (s.command.pictureText (.int n))) :
    ∃ text v, (number.execute s).on r = (s.write text).on r ∧ s.command.Prints m n v text ∧
      Representable v ∧ (∀ u, Representable u → |(v : ℤ) - n.natAbs| ≤ |(u : ℤ) - n.natAbs|) ∧
      (s.command.Prints m n n.natAbs text ↔ Representable n.natAbs) := by
  obtain ⟨text, htext, hprints⟩ := numberText_ofInt hfits hmultiplier hsummand hpicture
  refine ⟨text, rounded n.natAbs, ?_, hprints, representable_rounded _, fun u hu ↦ abs_rounded_le _ hu, ?_⟩
  · have hlift : (ofExcept id (s.command.numberText (.int n))).on r = (.ok text, r) := by
      rw [htext]
      rfl
    rw [number, on_bind_ok hvalue]
    change ((ofExcept id (s.command.numberText (.int n))) >>= s.write).on r = _
    rw [on_bind_ok hlift]
  · rw [← rounded_eq_iff]
    constructor
    · exact fun hexact ↦ hprints.unique hexact
    · intro hexact
      rwa [hexact] at hprints

def figures (key : String) (value : Json) : Selection where
  node := ⟨0, 2⟩
  command := ⟨"Number", [(key, value), ("format", .str "Nr #,##0"), ("lang", .str "de")], none⟩
  toolkit? := none
  provider := .empty
  now := ⟨⟨0, 1⟩, .midnight⟩

def germanMask : Mask := ⟨['N', 'r', ' '], ['#', ',', '#', '#', '0'], [], 3⟩

/-- The least number is shown digit for digit, an odd one of 54 bits is not. -/
theorem number_digits_german :
    (∃ text, (number.execute (figures "$value" (.str "n"))).on leastRun = ((figures "$value" (.str "n")).write text).on leastRun ∧
      (figures "$value" (.str "n")).command.Prints germanMask (-9223372036854775808) 9223372036854775808 text) ∧
      ∃ text, (number.execute (figures "value" (.int 9007199254740993))).on leastRun =
          ((figures "value" (.int 9007199254740993)).write text).on leastRun ∧
        ¬ (figures "value" (.int 9007199254740993)).command.Prints germanMask 9007199254740993 9007199254740993 text := by
  have hspells : germanMask.Spells "Nr #,##0" :=
    ⟨rfl, by simp [germanMask, Picture.isMark], by simp [germanMask], by simp [germanMask], by simp [germanMask],
      .inl ⟨['#'], ['#', '#', '0'], rfl, by simp, rfl⟩⟩
  have hodd : ¬ Representable 9007199254740993 := by
    rw [← rounded_eq_iff]
    decide +kernel
  obtain ⟨least, -, hleast, -, -, -, hexact⟩ := number_digits (s := figures "$value" (.str "n")) (r := leastRun) (m := germanMask)
    (n := -9223372036854775808) (by decide) rfl rfl rfl hspells
  obtain ⟨odd, -, hrun, -, -, -, hlost⟩ := number_digits (s := figures "value" (.int 9007199254740993)) (r := leastRun)
    (m := germanMask) (n := 9007199254740993) (by decide) rfl rfl rfl hspells
  exact ⟨⟨least, hleast, hexact.2 ⟨1, 63, by decide, by decide⟩⟩, odd, hrun, fun h ↦ hodd (hlost.1 h)⟩

end Handler

end Stencil
