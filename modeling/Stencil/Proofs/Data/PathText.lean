import Stencil.Data.Path
import Stencil.Proofs.Payload.Numeral
import Stencil.Proofs.Text.Trim
/-!
Paths and their texts. What is read from a text is the place where the path begins, or steps of
which only the first may be a variable; such steps are read back from their text unless blanks at an
end of it, which belong to a name, are trimmed.
-/

namespace Stencil

open Payload (AllDigits)

def Step.Valid : Step → Prop
  | .name s => s.toList ≠ [] ∧ ∀ c ∈ s.toList, Path.isNameChar c = true
  | .variableName s => s.toList ≠ [] ∧ ∀ c ∈ s.toList, Path.isNameChar c = true
  | .index n => n ≤ Path.maxIndex
  | .parent => True
  | .root => True
  | .current => False

namespace Path

/-- Steps that a text can spell: valid ones, with a variable at most in front. -/
structure Regular (steps : List Step) : Prop where
  valid : ∀ s ∈ steps, s.Valid
  inside : ∀ s ∈ steps.tail, isVariable s = false

theorem Regular.nil : Regular [] := ⟨by simp, by simp⟩

theorem digitsValue_eq (ds : List Char) : digitsValue ds = Payload.digitsValue ds := rfl

theorem nextToken_length (c : Char) (s : List Char) : (nextToken c s).2.length ≤ s.length := by
  have hdrop : ∀ p : Char → Bool, (s.dropWhile p).length ≤ s.length := fun p ↦
    (List.dropWhile_sublist p).length_le
  unfold nextToken
  split_ifs
  · exact le_rfl
  · exact le_rfl
  · exact le_rfl
  · split
    · next d ds r h₁ h₂ =>
      have := hdrop Char.isDigit
      rw [h₂, List.length_cons] at this
      simp only
      split <;> (simp only; omega)
    · exact le_rfl
  · split
    · exact le_rfl
    · exact hdrop _
  · exact hdrop _
  · exact le_rfl

theorem tokensFrom_enough {n m : ℕ} (i : ℕ) {s : List Char} (hn : s.length ≤ n) (hm : s.length ≤ m) :
    tokensFrom n i s = tokensFrom m i s := by
  induction n generalizing m i s with
  | zero =>
    obtain rfl := List.length_eq_zero_iff.1 (Nat.le_zero.1 hn)
    cases m <;> rfl
  | succ n ih =>
    cases s with
    | nil => cases m <;> rfl
    | cons c s =>
      simp only [List.length_cons] at hn hm
      obtain ⟨m, rfl⟩ : ∃ k, m = k + 1 := ⟨m - 1, by omega⟩
      rw [tokensFrom, tokensFrom]
      split
      · exact ih _ (by omega) (by omega)
      · have := nextToken_length c s
        simp only
        rw [ih (m := m) _ (by omega) (by omega)]

def tokensAt (i : ℕ) (s : List Char) : List (ℕ × Token) := tokensFrom s.length i s

theorem tokensAt_nil (i : ℕ) : tokensAt i [] = [] := rfl

theorem tokensAt_token {c : Char} {s r : List Char} {t : Token} (hgap : isGap c = false)
    (h : nextToken c s = (t, r)) (i : ℕ) : ∃ j, tokensAt i (c :: s) = (i, t) :: tokensAt j r := by
  have hlen := nextToken_length c s
  rw [h] at hlen
  refine ⟨i + Text.width (c :: s) - Text.width r, ?_⟩
  rw [tokensAt, List.length_cons, tokensFrom, if_neg (by simp [hgap]), h]
  simp only
  rw [tokensFrom_enough _ hlen le_rfl, tokensAt]

/-- The tokens of a step, with a dot in front where it needs one. -/
def stepTokens (afterNamed : Bool) : Step → List Token
  | .name s => if afterNamed then [.dot, .name s.toList] else [.name s.toList]
  | .index n => [.index n]
  | .variableName s => [.variableName s.toList]
  | .parent => [.parent]
  | .root => [.root]
  | .current => [.dot]

def NameEnds (r : List Char) : Prop := ∀ c ∈ r.head?, isNameChar c = false

theorem takeWhile_name {s r : List Char} (hs : ∀ c ∈ s, isNameChar c = true) (hr : NameEnds r) :
    (s ++ r).takeWhile isNameChar = s ∧ (s ++ r).dropWhile isNameChar = r := by
  rw [List.takeWhile_append_of_pos hs, List.dropWhile_append_of_pos hs]
  cases r with
  | nil => simp
  | cons c r => simp [hr c rfl]

theorem isNameChar_ne {c : Char} (h : isNameChar c = true) : c ≠ '.' ∧ c ≠ '<' ∧ c ≠ '^' ∧ c ≠ '[' ∧
    c ≠ ']' ∧ c ≠ '$' ∧ isGap c = false := by
  simp only [isNameChar, Bool.not_eq_true', Bool.or_eq_false_iff, beq_eq_false_iff_ne] at h
  obtain ⟨⟨⟨⟨⟨⟨h₁, h₂⟩, h₃⟩, h₄⟩, h₅⟩, h₆⟩, h₇⟩ := h
  exact ⟨h₁, h₄, h₅, h₂, h₃, h₆, h₇⟩

theorem nextToken_name {c : Char} {s r : List Char} (hc : isNameChar c = true)
    (hs : ∀ d ∈ s, isNameChar d = true) (hr : NameEnds r) : nextToken c (s ++ r) = (.name (c :: s), r) := by
  obtain ⟨h₁, h₂, h₃, h₄, _, h₆, _⟩ := isNameChar_ne hc
  obtain ⟨htake, hdrop⟩ := takeWhile_name hs hr
  unfold nextToken
  rw [if_neg h₁, if_neg h₂, if_neg h₃, if_neg h₄, if_neg h₆, if_pos hc, htake, hdrop]

theorem nextToken_dollar (s : List Char) : nextToken '$' s = match s.takeWhile isNameChar with
    | [] => (.unknown, s)
    | d :: ds => (.variableName (d :: ds), s.dropWhile isNameChar) := rfl

theorem nextToken_variable {s r : List Char} (hne : s ≠ []) (hs : ∀ d ∈ s, isNameChar d = true)
    (hr : NameEnds r) : nextToken '$' (s ++ r) = (.variableName s, r) := by
  obtain ⟨htake, hdrop⟩ := takeWhile_name hs hr
  obtain ⟨d, ds, rfl⟩ := List.exists_cons_of_ne_nil hne
  rw [nextToken_dollar, htake, hdrop]

theorem nextToken_bracket (s : List Char) : nextToken '[' s =
    match s.takeWhile Char.isDigit, s.dropWhile Char.isDigit with
    | d :: ds, ']' :: r =>
      let n := digitsValue (d :: ds)
      if n ≤ maxIndex then (.index n, r) else (.unknown, r)
    | _, _ => (.unknown, s) := rfl

theorem nextToken_index {n : ℕ} (hn : n ≤ maxIndex) (r : List Char) :
    nextToken '[' (Decimal.natText n ++ ']' :: r) = (.index n, r) := by
  have hall := Payload.allDigits_natText n
  have hne := Decimal.natText_ne_nil n
  have hclose : ∀ c ∈ (']' :: r).head?, c.isDigit = false := by simp
  have htake := Payload.takeWhile_isDigit hall hclose
  have hdrop := Payload.dropWhile_isDigit hall hclose
  have hval := Payload.digitsValue_natText n
  obtain ⟨d, ds, hds⟩ := List.exists_cons_of_ne_nil hne
  rw [hds] at htake hdrop hval ⊢
  rw [nextToken_bracket, htake, hdrop]
  simp only [digitsValue_eq, hval, if_pos hn]

/-- A text that spells tokens in front of a rest, wherever it stands. -/
def Spells (ts : List Token) (s r : List Char) : Prop :=
  ∀ i, ∃ (ps : List (ℕ × Token)) (j : ℕ), ps.map Prod.snd = ts ∧ tokensAt i (s ++ r) = ps ++ tokensAt j r

theorem Spells.nil (r : List Char) : Spells [] [] r := fun i ↦ ⟨[], i, rfl, rfl⟩

theorem Spells.cons {t : Token} {ts : List Token} {c : Char} {w s r : List Char} (hgap : isGap c = false)
    (ht : nextToken c (w ++ (s ++ r)) = (t, s ++ r)) (h : Spells ts s r) : Spells (t :: ts) (c :: w ++ s) r := by
  intro i
  obtain ⟨j, hj⟩ := tokensAt_token hgap ht i
  obtain ⟨ps, k, hps, hk⟩ := h j
  refine ⟨(i, t) :: ps, k, by simp [hps], ?_⟩
  rw [List.append_assoc, List.cons_append, hj, hk, List.cons_append]

theorem nameEnds_writeSteps (steps : List Step) : NameEnds (writeSteps true steps) := by
  cases steps with
  | nil => simp [NameEnds, writeSteps]
  | cons s ss =>
    intro c hc
    cases s <;> simp [writeSteps, writeStep] at hc <;> subst hc <;> rfl

def allTokens (afterNamed : Bool) : List Step → List Token
  | [] => []
  | s :: ss => stepTokens afterNamed s ++ allTokens (isNamed s) ss

theorem spells_name {s r : List Char} {ts : List Token} {rest : List Char} (hne : s ≠ [])
    (hs : ∀ c ∈ s, isNameChar c = true) (hr : NameEnds (rest ++ r)) (h : Spells ts rest r) :
    Spells (.name s :: ts) (s ++ rest) r := by
  obtain ⟨c, s, rfl⟩ := List.exists_cons_of_ne_nil hne
  have hc := hs c (by simp)
  exact .cons (isNameChar_ne hc).2.2.2.2.2.2
    (nextToken_name hc (fun d hd ↦ hs d (by simp [hd])) hr) h

theorem spells_writeSteps (afterNamed : Bool) {steps : List Step} (h : ∀ s ∈ steps, s.Valid) :
    Spells (allTokens afterNamed steps) (writeSteps afterNamed steps) [] := by
  induction steps generalizing afterNamed with
  | nil => exact .nil []
  | cons s ss ih =>
    have hs := h s (by simp)
    have htail := fun b ↦ ih b fun t ht ↦ h t (by simp [ht])
    have hends : NameEnds (writeSteps true ss ++ []) := by
      rw [List.append_nil]
      exact nameEnds_writeSteps ss
    cases s with
    | name n =>
      have hname := spells_name hs.1 hs.2 hends (htail true)
      cases afterNamed with
      | true => exact .cons (w := []) rfl rfl hname
      | false => exact hname
    | index n =>
      have := Spells.cons (c := '[') (w := Decimal.natText n ++ [']']) rfl
        (by rw [List.append_assoc]; exact nextToken_index hs _) (htail true)
      exact this
    | variableName n => exact .cons (c := '$') rfl (nextToken_variable hs.1 hs.2 hends) (htail true)
    | parent => exact .cons (w := []) rfl rfl (htail false)
    | root => exact .cons (w := []) rfl rfl (htail false)
    | current => exact hs.elim

theorem assemble_allTokens (fail : ℕ → PathCause → PathError) (size : ℕ) (done steps : List Step)
    (afterNamed : Bool) (hvalid : ∀ s ∈ steps, s.Valid)
    (hinside : ∀ s ∈ (done.reverse ++ steps).tail, isVariable s = false) (ps : List (ℕ × Token))
    (hps : ps.map Prod.snd = allTokens afterNamed steps) :
    assemble fail size done ⟨afterNamed, false⟩ ps = .ok ⟨done.reverse ++ steps⟩ := by
  induction steps generalizing done afterNamed ps with
  | nil =>
    obtain rfl := List.map_eq_nil_iff.1 hps
    simp [assemble]
  | cons s ss ih =>
    have hs := hvalid s (by simp)
    have hnext := fun b ps hps ↦ ih (s :: done) b (fun t ht ↦ hvalid t (by simp [ht]))
      (by simpa using hinside) ps hps
    simp only [List.reverse_cons, List.append_assoc, List.singleton_append] at hnext
    cases s with
    | name n =>
      cases afterNamed with
      | true =>
        obtain ⟨⟨i, t⟩, qs, rfl, rfl, hqs⟩ := List.map_eq_cons_iff.1 hps
        obtain ⟨⟨j, u⟩, qs, rfl, rfl, hqs'⟩ := List.map_eq_cons_iff.1 hqs
        simp only [assemble, Bool.false_eq_true, if_false, String.ofList_toList]
        exact hnext true qs hqs'
      | false =>
        obtain ⟨⟨i, t⟩, qs, rfl, rfl, hqs⟩ := List.map_eq_cons_iff.1 hps
        simp only [assemble, Bool.false_eq_true, if_false, String.ofList_toList]
        exact hnext true qs hqs
    | index n =>
      obtain ⟨⟨i, t⟩, qs, rfl, rfl, hqs⟩ := List.map_eq_cons_iff.1 hps
      simp only [assemble, Bool.false_eq_true, if_false]
      exact hnext true qs hqs
    | variableName n =>
      obtain ⟨⟨i, t⟩, qs, rfl, rfl, hqs⟩ := List.map_eq_cons_iff.1 hps
      have hdone : done = [] := by
        cases hd : done.reverse with
        | nil => simpa using hd
        | cons d ds =>
          rw [hd] at hinside
          have := hinside (.variableName n) (by simp)
          simp [isVariable] at this
      simp only [assemble, String.ofList_toList]
      rw [if_neg (by simp [hdone])]
      exact hnext true qs hqs
    | parent =>
      obtain ⟨⟨i, t⟩, qs, rfl, rfl, hqs⟩ := List.map_eq_cons_iff.1 hps
      exact hnext false qs hqs
    | root =>
      obtain ⟨⟨i, t⟩, qs, rfl, rfl, hqs⟩ := List.map_eq_cons_iff.1 hps
      exact hnext false qs hqs
    | current => exact hs.elim

theorem writeSteps_ne_dot {steps : List Step} (h : Regular steps) : writeSteps false steps ≠ ['.'] := by
  cases steps with
  | nil => simp [writeSteps]
  | cons s ss =>
    have hs := h.valid s (by simp)
    cases s with
    | name n =>
      obtain ⟨c, cs, hn⟩ := List.exists_cons_of_ne_nil hs.1
      have hc := (isNameChar_ne (hs.2 c (by simp [hn]))).1
      simp [writeSteps, writeStep, hn, hc]
    | current => exact hs.elim
    | _ => simp [writeSteps, writeStep]

/-- Steps are read back from their text, unless it is trimmed. -/
theorem parse_display {p : Path} (h : Regular p.steps)
    (htrim : Text.trim p.display.toList = p.display.toList) : parse p.display = .ok p := by
  have hchars : p.display.toList = writeSteps false p.steps := by rw [display, String.toList_ofList]
  obtain ⟨ps, j, hps, htokens⟩ := spells_writeSteps false h.valid 0
  rw [List.append_nil, tokensAt_nil, List.append_nil] at htokens
  simp only [parse, htrim]
  rw [hchars, if_neg (writeSteps_ne_dot h)]
  change assemble _ _ [] ⟨false, false⟩ (tokensAt 0 (writeSteps false p.steps)) = _
  rw [htokens]
  exact assemble_allTokens _ _ [] p.steps false h.valid h.inside ps hps

def Token.Valid : Token → Prop
  | .name s => s ≠ [] ∧ ∀ c ∈ s, isNameChar c = true
  | .variableName s => s ≠ [] ∧ ∀ c ∈ s, isNameChar c = true
  | .index n => n ≤ maxIndex
  | _ => True

def Token.size : Token → ℕ
  | .name s => s.length
  | .variableName s => s.length + 1
  | .index n => (Decimal.natText n).length + 2
  | _ => 1

theorem all_takeWhile (p : Char → Bool) (s : List Char) : ∀ c ∈ s.takeWhile p, p c = true :=
  List.all_eq_true.1 List.all_takeWhile

theorem digitsValue_lt {ds : List Char} (h : AllDigits ds) : Payload.digitsValue ds < 10 ^ ds.length := by
  induction ds using List.reverseRecOn with
  | nil => simp [Payload.digitsValue]
  | append_singleton ds d ih =>
    have hlt := ih fun c hc ↦ h c (by simp [hc])
    have hd := Payload.isDigit_range (h d (by simp))
    have hone : Payload.digitsValue [d] = d.toNat - 48 := by simp [Payload.digitsValue]
    rw [Payload.digitsValue_append, hone, List.length_append, List.length_singleton, pow_succ]
    omega

theorem natText_digitsValue_length {ds : List Char} (h : AllDigits ds) (hne : ds ≠ []) :
    (Decimal.natText (digitsValue ds)).length ≤ ds.length :=
  (Nat.length_toDigits_le_iff (by norm_num) (List.length_pos_iff.2 hne)).2 (digitsValue_lt h)

theorem nextToken_spec (c : Char) (s : List Char) :
    (nextToken c s).1.Valid ∧ (nextToken c s).1.size + (nextToken c s).2.length ≤ s.length + 1 := by
  have hsplit : ∀ p : Char → Bool, (s.takeWhile p).length + (s.dropWhile p).length = s.length := fun p ↦ by
    rw [← List.length_append, List.takeWhile_append_dropWhile]
  unfold nextToken
  split_ifs with h₁ h₂ h₃ h₄ h₅ h₆
  · exact ⟨trivial, by simp [Token.size]; omega⟩
  · exact ⟨trivial, by simp [Token.size]; omega⟩
  · exact ⟨trivial, by simp [Token.size]; omega⟩
  · split
    · next d ds r htake hdrop =>
      have hlen := hsplit Char.isDigit
      have hall : AllDigits (d :: ds) := htake ▸ all_takeWhile _ _
      have hsize := natText_digitsValue_length hall (by simp)
      rw [htake, hdrop] at hlen
      simp only [List.length_cons] at hlen hsize
      simp only
      split
      · next hmax => exact ⟨hmax, by simp only [Token.size]; omega⟩
      · exact ⟨trivial, by simp only [Token.size]; omega⟩
    · exact ⟨trivial, by simp [Token.size]; omega⟩
  · have hlen := hsplit isNameChar
    split
    · exact ⟨trivial, by simp [Token.size]; omega⟩
    · next d ds htake =>
      rw [htake] at hlen
      refine ⟨⟨by simp, htake ▸ all_takeWhile _ _⟩, ?_⟩
      simp only [Token.size, List.length_cons] at hlen ⊢
      omega
  · have hlen := hsplit isNameChar
    refine ⟨⟨by simp, fun d hd ↦ ?_⟩, ?_⟩
    · rcases List.mem_cons.1 hd with rfl | hd
      · exact h₆
      · exact all_takeWhile _ _ d hd
    · simp only [Token.size, List.length_cons]
      omega
  · exact ⟨trivial, by simp [Token.size]; omega⟩

def tokensSize (ts : List (ℕ × Token)) : ℕ := (ts.map fun t ↦ t.2.size).sum

theorem tokensFrom_spec (n i : ℕ) (s : List Char) :
    (∀ t ∈ tokensFrom n i s, t.2.Valid) ∧ tokensSize (tokensFrom n i s) ≤ s.length := by
  induction n generalizing i s with
  | zero => simp [tokensFrom, tokensSize]
  | succ n ih =>
    cases s with
    | nil => simp [tokensFrom, tokensSize]
    | cons c s =>
      rw [tokensFrom]
      split
      · obtain ⟨hvalid, hsize⟩ := ih (i + c.utf8Size) s
        exact ⟨hvalid, by rw [List.length_cons]; omega⟩
      · obtain ⟨hvalid, hsize⟩ := ih (i + Text.width (c :: s) - Text.width (nextToken c s).2) (nextToken c s).2
        obtain ⟨hv, hs⟩ := nextToken_spec c s
        refine ⟨fun t ht ↦ ?_, ?_⟩
        · rcases List.mem_cons.1 ht with rfl | ht
          · exact hv
          · exact hvalid t ht
        · simp only [tokensSize, List.map_cons, List.sum_cons, List.length_cons] at hsize ⊢
          omega

/-- What is read from tokens: regular steps, written with no more characters than the tokens. -/
theorem assemble_spec {fail : ℕ → PathCause → PathError} {size : ℕ} {done : List Step} {link : Link}
    {ts : List (ℕ × Token)} {p : Path} (hread : assemble fail size done link ts = .ok p)
    (hts : ∀ t ∈ ts, t.2.Valid) (hdone : Regular done.reverse) (afterNamed : Bool)
    (hlink : link.pendingDot = true ∨ link.needsDot = afterNamed) :
    Regular p.steps ∧ ∃ steps, p.steps = done.reverse ++ steps ∧
      (writeSteps afterNamed steps).length ≤ tokensSize ts + if link.pendingDot then 1 else 0 := by
  induction ts generalizing done link afterNamed with
  | nil =>
    simp only [assemble] at hread
    split at hread
    · simp at hread
    · obtain rfl := Except.ok.inj hread
      exact ⟨hdone, [], by simp, by simp [writeSteps]⟩
  | cons t ts ih =>
    obtain ⟨i, t⟩ := t
    have ht := hts (i, t) (by simp)
    have hrest : ∀ u ∈ ts, u.2.Valid := fun u hu ↦ hts u (List.mem_cons_of_mem _ hu)
    have hsum : tokensSize ((i, t) :: ts) = t.size + tokensSize ts := by simp [tokensSize]
    -- every step that is read goes behind the others and costs no more than its token
    have hstep : ∀ (s : Step) (needsDot : Bool), s.Valid → (isVariable s = true → done = []) →
        needsDot = isNamed s →
        (writeStep afterNamed s).length ≤ t.size + (if link.pendingDot then 1 else 0) →
        assemble fail size (s :: done) ⟨needsDot, false⟩ ts = .ok p →
        Regular p.steps ∧ ∃ steps, p.steps = done.reverse ++ steps ∧
          (writeSteps afterNamed steps).length ≤
            tokensSize ((i, t) :: ts) + if link.pendingDot then 1 else 0 := by
      intro s needsDot hs hvar hneeds hcost hread
      have hdone' : Regular (s :: done).reverse := by
        rw [List.reverse_cons]
        refine ⟨fun u hu ↦ ?_, fun u hu ↦ ?_⟩
        · rcases List.mem_append.1 hu with hu | hu
          · exact hdone.valid u hu
          · exact List.mem_singleton.1 hu ▸ hs
        · cases hd : done.reverse with
          | nil => rw [hd] at hu; simp at hu
          | cons d ds =>
            rw [hd, List.cons_append, List.tail_cons] at hu
            rcases List.mem_append.1 hu with hu | hu
            · exact hdone.inside u (by rw [hd]; exact hu)
            · rw [List.mem_singleton.1 hu]
              cases hsv : isVariable s with
              | false => rfl
              | true => rw [hvar hsv] at hd; simp at hd
      obtain ⟨hreg, steps, hp, hlen⟩ := ih hread hrest hdone' (isNamed s) (.inr hneeds)
      refine ⟨hreg, s :: steps, by simp [hp], ?_⟩
      simp only [Bool.false_eq_true, if_false, Nat.add_zero] at hlen
      rw [writeSteps, List.length_append, hsum]
      omega
    cases t with
    | unknown => simp [assemble] at hread
    | dot =>
      simp only [assemble] at hread
      split at hread
      · simp at hread
      · next hpend =>
        obtain ⟨hreg, steps, hp, hlen⟩ := ih hread hrest hdone afterNamed (.inl rfl)
        refine ⟨hreg, steps, hp, ?_⟩
        rw [hsum]
        simp only [if_true, Token.size] at hlen ⊢
        omega
    | name s =>
      simp only [assemble] at hread
      split at hread
      · simp at hread
      · next hneeds =>
        refine hstep (.name (String.ofList s)) true (by simpa [Step.Valid, Token.Valid] using ht) (by simp [isVariable]) rfl ?_ hread
        rw [writeStep, String.toList_ofList, Token.size]
        rcases hlink with hpend | hneeds'
        · rw [if_pos hpend]
          split <;> simp
        · rw [hneeds', Bool.not_eq_true] at hneeds
          simp [hneeds]
    | index n =>
      simp only [assemble] at hread
      split at hread
      · simp at hread
      · exact hstep (.index n) true ht (by simp [isVariable]) rfl (by simp [writeStep, Token.size]) hread
    | variableName s =>
      simp only [assemble] at hread
      split at hread
      · simp at hread
      · next hempty =>
        exact hstep (.variableName (String.ofList s)) true (by simpa [Step.Valid, Token.Valid] using ht)
          (fun _ ↦ by simpa using hempty) rfl (by simp [writeStep, Token.size]) hread
    | parent => exact hstep .parent false trivial (by simp [isVariable]) rfl (by simp [writeStep, Token.size]) hread
    | root => exact hstep .root false trivial (by simp [isVariable]) rfl (by simp [writeStep, Token.size]) hread

/-- What is read from a text: the place where the path begins, or regular steps that are written
with no more characters than the text has without the blanks around it. -/
theorem parse_spec {text : String} {p : Path} (h : parse text = .ok p) :
    p.steps = [.current] ∧ Text.trim text.toList = ['.'] ∨
      Regular p.steps ∧ p.display.toList.length ≤ (Text.trim text.toList).length := by
  simp only [parse] at h
  split at h
  · next hdot =>
    obtain rfl := Except.ok.inj h
    exact .inl ⟨rfl, hdot⟩
  · obtain ⟨hvalid, hsize⟩ := tokensFrom_spec (Text.trim text.toList).length 0 (Text.trim text.toList)
    obtain ⟨hreg, steps, hp, hlen⟩ := assemble_spec h hvalid .nil false (.inr rfl)
    refine .inr ⟨hreg, ?_⟩
    rw [List.reverse_nil, List.nil_append] at hp
    rw [display, String.toList_ofList, hp]
    simp only [Bool.false_eq_true, if_false, Nat.add_zero] at hlen
    exact hlen.trans hsize

theorem parse_display_iff {p : Path} (h : Regular p.steps) :
    parse p.display = .ok p ↔ Text.trim p.display.toList = p.display.toList := by
  refine ⟨fun hread ↦ ?_, parse_display h⟩
  rcases parse_spec hread with ⟨hcur, _⟩ | ⟨_, hlen⟩
  · exact (h.valid .current (by simp [hcur])).elim
  · exact (Text.trim_sublist _).eq_of_length_le hlen

end Path

end Stencil
