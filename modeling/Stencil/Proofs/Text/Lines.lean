import Stencil.Text.Offset
import Mathlib.Tactic
/-!
Lines and the texts that they make. A text without carriage returns is made of lines, and lines that are ended
each are those of their text.
-/

namespace Stencil.Text

def IsLine (s : List Char) : Prop := '\n' ∉ s ∧ '\r' ∉ s

instance (s : List Char) : Decidable (IsLine s) := inferInstanceAs (Decidable (_ ∧ _))

def ofLines (ls : List (List Char)) : String := String.ofList (ls.flatMap fun l ↦ l ++ ['\n'])

theorem linesInclusive_line {l : List Char} (h : '\n' ∉ l) (rest : List Char) :
    linesInclusive (l ++ '\n' :: rest) = (l ++ ['\n']) :: linesInclusive rest := by
  induction l with
  | nil => rfl
  | cons c l ih =>
    have hc : c ≠ '\n' := fun heq ↦ h (heq ▸ List.mem_cons_self ..)
    rw [List.cons_append, linesInclusive, if_neg hc, ih fun hl ↦ h (List.mem_cons_of_mem _ hl)]
    rfl

theorem chomp_line {l : List Char} (h : '\r' ∉ l) : chomp (l ++ ['\n']) = l := by
  rw [chomp, List.reverse_append, List.reverse_singleton, List.singleton_append]
  split
  · next r heq =>
    have hmem : '\r' ∈ l.reverse := (List.cons.inj heq).2 ▸ List.mem_cons_self ..
    exact absurd (List.mem_reverse.1 hmem) h
  · next r _ heq => rw [← (List.cons.inj heq).2, List.reverse_reverse]
  · next hno => exact absurd rfl (hno _)

theorem lines_flatMap {ls : List (List Char)} (h : ∀ l ∈ ls, IsLine l) : lines (ls.flatMap fun l ↦ l ++ ['\n']) = ls := by
  induction ls with
  | nil => rfl
  | cons l ls ih =>
    obtain ⟨hfeed, hreturn⟩ := h l (List.mem_cons_self ..)
    have htail := ih fun x hx ↦ h x (List.mem_cons_of_mem _ hx)
    rw [lines] at htail ⊢
    rw [List.flatMap_cons, List.append_assoc, List.singleton_append, linesInclusive_line hfeed, List.map_cons,
      chomp_line hreturn, htail]

theorem lines_ofLines {ls : List (List Char)} (h : ∀ l ∈ ls, IsLine l) : lines (ofLines ls).toList = ls := by
  rw [ofLines, String.toList_ofList, lines_flatMap h]

theorem flatten_linesInclusive (s : List Char) : (linesInclusive s).flatten = s := by
  induction s with
  | nil => rfl
  | cons c s ih =>
    rw [linesInclusive]
    split
    · rw [List.flatten_cons, ih]
      rfl
    · split
      · next hnil =>
        rw [hnil] at ih
        rw [← ih]
        rfl
      · next p ps hps =>
        rw [hps, List.flatten_cons] at ih
        rw [List.flatten_cons, List.cons_append, ih]

theorem linesInclusive_cases {s l : List Char} (h : l ∈ linesInclusive s) :
    ∃ body ⊆ s, '\n' ∉ body ∧ (l = body ++ ['\n'] ∨ l = body) := by
  induction s generalizing l with
  | nil => cases h
  | cons c s ih =>
    rw [linesInclusive] at h
    split at h
    · next hc =>
      rcases List.mem_cons.1 h with rfl | h
      · exact ⟨[], by simp, by simp, .inl (by rw [hc]; rfl)⟩
      · obtain ⟨body, hsub, hbody⟩ := ih h
        exact ⟨body, fun x hx ↦ List.mem_cons_of_mem _ (hsub hx), hbody⟩
    · next hc =>
      split at h
      · obtain rfl := List.mem_singleton.1 h
        exact ⟨[c], by simp, by simpa using Ne.symm hc, .inr rfl⟩
      · next first rest hrest =>
        rcases List.mem_cons.1 h with rfl | h
        · obtain ⟨body, hsub, hfeed, hbody⟩ := ih (l := first) (by rw [hrest]; exact List.mem_cons_self ..)
          refine ⟨c :: body, List.cons_subset_cons c hsub, by simp [hfeed, Ne.symm hc], ?_⟩
          rcases hbody with rfl | rfl
          · exact .inl rfl
          · exact .inr rfl
        · obtain ⟨body, hsub, hbody⟩ := ih (l := l) (by rw [hrest]; exact List.mem_cons_of_mem _ h)
          exact ⟨body, fun x hx ↦ List.mem_cons_of_mem _ (hsub hx), hbody⟩

theorem chomp_of_no_feed {l : List Char} (h : '\n' ∉ l) : chomp l = l := by
  rw [chomp]
  split
  · next r heq => exact absurd (List.mem_reverse.1 (heq ▸ List.mem_cons_self ..)) h
  · next r _ heq => exact absurd (List.mem_reverse.1 (heq ▸ List.mem_cons_self ..)) h
  · rfl

theorem isLine_of_mem_lines {s l : List Char} (hs : '\r' ∉ s) (h : l ∈ lines s) : IsLine l := by
  obtain ⟨piece, hpiece, rfl⟩ := List.mem_map.1 h
  obtain ⟨body, hsub, hfeed, rfl | rfl⟩ := linesInclusive_cases hpiece
  · have hreturn : '\r' ∉ body := fun hin ↦ hs (hsub hin)
    rw [chomp_line hreturn]
    exact ⟨hfeed, hreturn⟩
  · rw [chomp_of_no_feed hfeed]
    exact ⟨hfeed, fun hin ↦ hs (hsub hin)⟩

end Stencil.Text
