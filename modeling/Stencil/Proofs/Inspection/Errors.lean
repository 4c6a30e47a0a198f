import Stencil.Inspection
import Stencil.Proofs.Payload.Placement
import Stencil.Proofs.Text.Lines
/-!
Where the errors of an inspection stand. An inspection reports what the reading of a payload refuses and nothing
else, moved to where the payload starts in the template; so every span that is reported lies within a payload.
-/

namespace Stencil

namespace Payload.Error

theorem span_shift (e : Error) (n : ℕ) : (e.shift n).span = e.span.shift n := by
  cases e <;> rfl

theorem unexpectedToken_of_shift {e : Error} {n : ℕ} {span : Span} {expected : Expected} {found : String}
    (h : e.shift n = .unexpectedToken span expected found) : ∃ σ, e = .unexpectedToken σ expected found := by
  cases e with
  | unexpectedToken σ _ _ =>
    obtain ⟨-, rfl, rfl⟩ := Error.unexpectedToken.inj h
    exact ⟨σ, rfl⟩
  | _ => contradiction

end Payload.Error

namespace Delimiters

open Payload

variable {d : Delimiters}

theorem exists_of_markersFrom (n : ℕ) (a s : List Char) : ∀ m ∈ d.markersFrom n (Text.width a) s,
    ∃ x y, a ++ s = x ++ d.enclose m.payload ++ y ∧ m.start = Text.width x := by
  induction n generalizing a s with
  | zero => simp [markersFrom]
  | succ n ih =>
    rw [markersFrom]
    cases hcut : d.cut? s with
    | none => simp
    | some c =>
      have hs := cut?_eq_append hcut
      have hstop : (d.span ⟨Text.width a + Text.width c.before, c.payload⟩).stop =
          Text.width (a ++ c.before ++ d.enclose c.payload) := by
        rw [span, Text.width_append, Text.width_append]
      have hrest := ih (a ++ c.before ++ d.enclose c.payload) c.after
      rw [← hstop] at hrest
      have hsplit : a ++ s = a ++ c.before ++ d.enclose c.payload ++ c.after := by
        rw [hs]
        simp
      rw [hsplit]
      refine List.forall_mem_cons.2 ⟨⟨a ++ c.before, c.after, rfl, ?_⟩, hrest⟩
      rw [Text.width_append]

end Delimiters

namespace Site

variable {d : Delimiters}

theorem exists_of_ofLines (lines : List (List Char)) (number : ℕ) (a : List Char) :
    ∀ s ∈ ofLines d number (Text.width a) lines,
      ∃ x y, a ++ lines.flatten = x ++ d.enclose s.payload ++ y ∧ s.start = Text.width (x ++ d.opening.toList) := by
  induction lines generalizing number a with
  | nil => simp [ofLines]
  | cons line lines ih =>
    intro s hs
    rw [List.flatten_cons]
    rcases List.mem_append.1 hs with hs | hs
    · obtain ⟨m, hm, rfl⟩ := List.mem_map.1 hs
      obtain ⟨x, y, hline, hstart⟩ := Delimiters.exists_of_markersFrom _ [] line m hm
      refine ⟨a ++ x, y ++ lines.flatten, ?_, ?_⟩
      · rw [List.nil_append] at hline
        rw [hline]
        simp
      · rw [Text.width_append, Text.width_append, Nat.add_assoc, ← hstart]
        rfl
    · rw [← Text.width_append] at hs
      rw [← List.append_assoc]
      exact ih (number + 1) (a ++ line) s hs

theorem exists_of_mem {source : String} {s : Site} (h : s ∈ ofTemplate d source) :
    ∃ x y, source.toList = x ++ d.enclose s.payload ++ y ∧ s.start = Text.width (x ++ d.opening.toList) := by
  have hlines := exists_of_ofLines _ 1 [] s h
  rwa [List.nil_append, Text.flatten_linesInclusive] at hlines

end Site

namespace Inspection

variable {i : Inspection} {known : String → Bool} {s : Site} {c : Command}

/-! ### Commands report nothing -/

theorem errors_closeBlock (name : String) : (i.closeBlock name s).errors = i.errors := by
  rw [closeBlock]
  split
  · rfl
  · dsimp only
    split_ifs <;> rfl

theorem errors_define : (i.define c).errors = i.errors := by
  rw [define]
  split <;> rfl

theorem errors_meet (name : String) : (i.meet s c name).errors = i.errors := by
  rw [meet]
  split
  · rfl
  · split_ifs
    · rfl
    · exact errors_define
    · rfl
    · exact errors_closeBlock name
    · rfl

theorem errors_passCommand : (i.passCommand known s c).errors = i.errors := by
  rw [passCommand]
  dsimp only
  split_ifs
  · rfl
  · exact errors_meet _
  · exact errors_meet _

theorem errors_passCommands (cs : Commands) : (cs.foldl (fun j c ↦ j.passCommand known s c) i).errors = i.errors := by
  induction cs generalizing i with
  | nil => rfl
  | cons c cs ih => rw [List.foldl_cons, ih, errors_passCommand]

/-- Passing a marker reports at most why its payload is refused. -/
theorem errors_passSite (i : Inspection) (known : String → Bool) (s : Site) : (i.passSite known s).errors = i.errors ∨
    ∃ e, Payload.read s.payload = .error e ∧ (i.passSite known s).errors = i.errors ++ [e.shift s.start] := by
  rw [passSite]
  split
  · exact .inl (errors_passCommands _)
  · next e he =>
    split_ifs
    · exact .inl rfl
    · exact .inr ⟨e, he, rfl⟩

theorem mem_errors_passSites {sites : List Site} {e : Payload.Error}
    (h : e ∈ (sites.foldl (fun i s ↦ i.passSite known s) i).errors) :
    e ∈ i.errors ∨ ∃ s ∈ sites, ∃ e', Payload.read s.payload = .error e' ∧ e = e'.shift s.start := by
  induction sites generalizing i with
  | nil => exact .inl h
  | cons s sites ih =>
    rcases ih h with hmem | ⟨s', hs', hread⟩
    · rcases errors_passSite i known s with heq | ⟨e', he', heq⟩
      · exact .inl (heq ▸ hmem)
      · rw [heq, List.mem_append, List.mem_singleton] at hmem
        rcases hmem with hmem | rfl
        · exact .inl hmem
        · exact .inr ⟨s, List.mem_cons_self, e', he', rfl⟩
    · exact .inr ⟨s', List.mem_cons_of_mem _ hs', hread⟩

/-- Every error that an inspection reports comes from reading the payload of one of the template's markers, and
its span covers a piece of this payload where the payload stands in the template. For a token that was not
expected this piece is the text that the error shows. -/
theorem located_of_mem_errors (known : String → Bool) (d : Delimiters) (source : String) :
    ∀ e ∈ (ofTemplate known d source).errors, ∃ s ∈ Site.ofTemplate d source, ∃ a b x w y,
      source.toList = a ++ d.opening.toList ++ (x ++ w ++ y) ++ d.closing.toList ++ b ∧
      s.payload = x ++ w ++ y ∧ s.start = Text.width (a ++ d.opening.toList) ∧
      e.span = ⟨s.start + Text.width x, s.start + Text.width x + Text.width w⟩ ∧
      (∃ e', Payload.read s.payload = .error e' ∧ e = e'.shift s.start) ∧
      ∀ span expected found, e = .unexpectedToken span expected found → found = String.ofList w := by
  intro e he
  rcases mem_errors_passSites he with hnone | ⟨s, hs, e', hread, rfl⟩
  · cases hnone
  obtain ⟨a, b, hsource, hstart⟩ := Site.exists_of_mem hs
  obtain ⟨w, ⟨x, y, hpayload, hspan⟩, hfound⟩ := (Payload.located_of_read hread).covers
  refine ⟨s, hs, a, b, x, w, y, ?_, hpayload, hstart, ?_, ⟨e', hread, rfl⟩, ?_⟩
  · rw [hsource, Delimiters.enclose, hpayload]
    simp
  · rw [Payload.Error.span_shift, hspan, Payload.Span.shift, Text.width_append, Nat.add_comm, Nat.add_comm _ s.start,
      Nat.add_assoc]
  · intro span expected found heq
    obtain ⟨σ, hσ⟩ := Payload.Error.unexpectedToken_of_shift heq
    exact hfound σ expected found hσ

theorem located_of_mem_errors_bracket :
    Payload.Error.unexpectedToken ⟨14, 15⟩ .value "]" ∈
        (ofTemplate (fun _ ↦ true) .default "é\n$\x7b@a; If x:]\x7d").errors ∧
      ∃ s ∈ Site.ofTemplate .default "é\n$\x7b@a; If x:]\x7d", ∃ a b x y,
        "é\n$\x7b@a; If x:]\x7d".toList = a ++ ['$', '\x7b'] ++ (x ++ [']'] ++ y) ++ ['\x7d'] ++ b ∧
        s.start = Text.width (a ++ ['$', '\x7b']) ∧ 14 = s.start + Text.width x := by
  have hmem : Payload.Error.unexpectedToken ⟨14, 15⟩ .value "]" ∈
      (ofTemplate (fun _ ↦ true) .default "é\n$\x7b@a; If x:]\x7d").errors := by decide +kernel
  obtain ⟨s, hs, a, b, x, w, y, hsource, -, hstart, hspan, -, hfound⟩ := located_of_mem_errors _ _ _ _ hmem
  obtain rfl : w = [']'] := by
    have hw := congrArg String.toList (hfound _ _ _ rfl)
    rw [String.toList_ofList, String.toList_ofList] at hw
    exact hw.symm
  exact ⟨hmem, s, hs, a, b, x, y, hsource, hstart, congrArg Payload.Span.start hspan⟩

end Inspection

end Stencil
