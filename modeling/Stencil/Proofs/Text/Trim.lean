import Stencil.Text.Blank
import Mathlib.Tactic
/-!
Trimming of text whose ends are known.
-/

namespace Stencil.Text

def StartsInk (s : List Char) : Prop := ∃ c t, s = c :: t ∧ isBlank c = false

def EndsInk (s : List Char) : Prop := ∃ t c, s = t ++ [c] ∧ isBlank c = false

theorem StartsInk.append {s : List Char} (h : StartsInk s) (t : List Char) : StartsInk (s ++ t) := by
  obtain ⟨c, r, rfl, hc⟩ := h
  exact ⟨c, r ++ t, rfl, hc⟩

theorem EndsInk.append {t : List Char} (h : EndsInk t) (s : List Char) : EndsInk (s ++ t) := by
  obtain ⟨r, c, rfl, hc⟩ := h
  exact ⟨s ++ r, c, by rw [List.append_assoc], hc⟩

theorem endsInk_of_all {s : List Char} (hne : s ≠ []) (h : ∀ c ∈ s, isBlank c = false) : EndsInk s :=
  ⟨s.dropLast, s.getLast hne, (List.dropLast_append_getLast hne).symm, h _ (List.getLast_mem hne)⟩

theorem trimStart_of_startsInk {s : List Char} (h : StartsInk s) : trimStart s = s := by
  obtain ⟨c, t, rfl, hc⟩ := h
  exact trimStart_cons_of_not_blank hc

theorem trimEnd_of_endsInk {s : List Char} (h : EndsInk s) : trimEnd s = s := by
  obtain ⟨t, c, rfl, hc⟩ := h
  induction t with
  | nil => simp [trimEnd, hc]
  | cons d t ih =>
    rw [List.cons_append, trimEnd, ih]
    cases t <;> rfl

theorem trim_of_ink {s : List Char} (h : StartsInk s) (h' : EndsInk s) : trim s = s := by
  rw [trim, trimStart_of_startsInk h, trimEnd_of_endsInk h']

theorem trim_cons_of_blank {c : Char} (h : isBlank c = true) (s : List Char) : trim (c :: s) = trim s := by
  rw [trim, trimStart_cons_of_blank h, trim]

theorem trimEnd_sublist (s : List Char) : (trimEnd s).Sublist s := by
  induction s with
  | nil => exact .slnil
  | cons c s ih =>
    rw [trimEnd]
    split
    · split
      · exact List.nil_sublist _
      · exact (List.nil_sublist s).cons_cons c
    · exact ih.cons_cons c

theorem trim_sublist (s : List Char) : (trim s).Sublist s :=
  (trimEnd_sublist _).trans (List.dropWhile_sublist _)

theorem endsInk_trimEnd (s : List Char) : trimEnd s = [] ∨ EndsInk (trimEnd s) := by
  induction s with
  | nil => exact .inl rfl
  | cons c s ih =>
    rw [trimEnd]
    split
    · split
      · exact .inl rfl
      · next hc => exact .inr ⟨[], c, rfl, by simpa using hc⟩
    · next hne =>
      rcases ih with h | h
      · exact absurd h hne
      · exact .inr (h.append [c])

theorem trimEnd_cons_of_not_blank {c : Char} (h : isBlank c = false) (s : List Char) :
    trimEnd (c :: s) = c :: trimEnd s := by
  rw [trimEnd]
  split
  · next hnil => rw [hnil, h]; rfl
  · rfl

theorem startsInk_trimStart (s : List Char) : trimStart s = [] ∨ StartsInk (trimStart s) := by
  induction s with
  | nil => exact .inl rfl
  | cons c s ih =>
    cases hc : isBlank c with
    | true => rwa [trimStart_cons_of_blank hc]
    | false => exact .inr ⟨c, s, trimStart_cons_of_not_blank hc, hc⟩

theorem trim_trim (s : List Char) : trim (trim s) = trim s := by
  rcases startsInk_trimStart s with hnil | ⟨c, t, ht, hc⟩
  · rw [trim, trim, hnil]
    rfl
  · have htrim : trim s = c :: trimEnd t := by rw [trim, ht, trimEnd_cons_of_not_blank hc]
    rcases endsInk_trimEnd (c :: t) with hnil | hink
    · rw [trimEnd_cons_of_not_blank hc] at hnil
      simp at hnil
    · rw [trimEnd_cons_of_not_blank hc] at hink
      rw [htrim]
      exact trim_of_ink ⟨c, _, rfl, hc⟩ hink

theorem trim_eq_self_iff {s : List Char} : trim s = s ↔
    (∀ c ∈ s.head?, isBlank c = false) ∧ ∀ c ∈ s.getLast?, isBlank c = false := by
  constructor
  · intro h
    constructor
    · intro c hc
      cases s with
      | nil => simp at hc
      | cons d s =>
        obtain rfl : d = c := by simpa using hc
        cases hb : isBlank d with
        | false => rfl
        | true =>
          have hlen := (trim_sublist s).length_le
          rw [← trim_cons_of_blank hb, h, List.length_cons] at hlen
          omega
    · intro c hc
      rcases endsInk_trimEnd (trimStart s) with hnil | ⟨t, d, ht, hd⟩
      · rw [← h, trim, hnil] at hc
        simp at hc
      · rw [← h, trim, ht] at hc
        obtain rfl : d = c := by simpa using hc
        exact hd
  · rintro ⟨hfirst, hlast⟩
    cases s with
    | nil => rfl
    | cons c s =>
      refine trim_of_ink ⟨c, s, rfl, hfirst c rfl⟩
        ⟨(c :: s).dropLast, (c :: s).getLast (by simp), (List.dropLast_append_getLast _).symm,
          hlast _ (List.getLast?_eq_some_getLast _)⟩

end Stencil.Text
