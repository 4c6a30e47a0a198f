import Stencil.Proofs.Attempt
import Stencil.Proofs.Payload.Pieces
/-!
Payloads with a semicolon between them. The search for the closing delimiter and the cut at semicolons read
quotes alike, so a payload that is closed leaves both of them outside of quotes: what follows the semicolon is
closed and cut as if it stood alone.
-/

namespace Stencil

namespace Payload

def Quoting.after (q : Quoting) (s : List Char) : Quoting := s.foldl Quoting.step q

variable {closing p b s : List Char} {q : Quoting} {depth : ℕ}

/-- A payload that is closed leaves the search outside of quotes. -/
theorem after_of_close (hne : closing ≠ []) (h : close closing q depth (p ++ closing ++ b) = some (p, b)) :
    q.after p = .outside := by
  induction p generalizing q depth with
  | nil => exact ((close_nil_iff hne).1 h).1
  | cons c p ih => exact ih (close_cons_iff.1 h).2

/-- What follows a payload that is closed is searched as if it stood alone, when it does not begin within the
closing delimiter. -/
theorem close_resume (hne : closing ≠ []) (h : close closing q depth (p ++ closing ++ b) = some (p, b))
    {c : Char} {r : List Char} (hc : c ∉ closing) :
    close closing q depth (p ++ c :: r) = (close closing .outside 0 (c :: r)).map fun x ↦ (p ++ x.1, x.2) := by
  induction p generalizing q depth with
  | nil =>
    obtain ⟨rfl, rfl⟩ := (close_nil_iff hne).1 h
    simp
  | cons x p ih =>
    rw [List.cons_append, List.cons_append] at h
    obtain ⟨hstrip, hrest⟩ := close_cons_iff.1 h
    have hnone : q = .outside ∧ depth = 0 → Text.stripPrefix? closing (x :: (p ++ c :: r)) = none := by
      intro hzero
      rw [← List.cons_append]
      apply Text.stripPrefix?_none_of_disjoint (by simpa using hc)
      cases hfront : Text.stripPrefix? closing (x :: p) with
      | none => rfl
      | some u =>
        have hsome := Text.stripPrefix?_append_left hfront (closing ++ b)
        rw [List.cons_append, ← List.append_assoc, hstrip hzero] at hsome
        contradiction
    rw [List.cons_append, close_cons hnone, ih hrest, Option.map_map]
    rfl

/-! ### Pieces between semicolons -/

theorem prepend_append_right {ps : List (List Char)} (h : ps ≠ []) (s : List Char) (qs : List (List Char)) :
    prepend s (ps ++ qs) = prepend s ps ++ qs := by
  obtain ⟨p, ps, rfl⟩ := List.exists_cons_of_ne_nil h
  rfl

theorem segments_append_semicolon (h : q.after p = .outside) (r : List Char) :
    segments q (p ++ ';' :: r) = segments q p ++ segments .outside r := by
  induction p generalizing q with
  | nil =>
    obtain rfl : q = .outside := h
    rfl
  | cons c p ih =>
    have hrest := ih (q := q.step c) h
    by_cases hcut : q = .outside ∧ c = ';'
    · obtain ⟨rfl, rfl⟩ := hcut
      rw [List.cons_append, segments, if_pos ⟨rfl, rfl⟩, segments, if_pos ⟨rfl, rfl⟩]
      exact congrArg ([] :: ·) hrest
    · rw [List.cons_append, segments_cons hcut, segments_cons hcut, hrest,
        prepend_append_right (segments_ne_nil _ _)]

/-! ### Reading -/

variable {i : ℕ} {ps qs : List (List Char)} {cs ds : Commands}

theorem readSegments_cons (p : List Char) (ps : List (List Char)) :
    readSegments i (p :: ps) = .ok cs ↔ Text.trim p = [] ∧ readSegments (i + Text.width p + 1) ps = .ok cs ∨
      Text.trim p ≠ [] ∧ ∃ c ds, readCommand p = .ok c ∧ readSegments (i + Text.width p + 1) ps = .ok ds ∧
        cs = c :: ds := by
  rw [readSegments]
  by_cases hblank : Text.trim p = []
  · simp [hblank]
  · rw [if_neg (by simpa using hblank)]
    cases readCommand p with
    | error e => simp [hblank]
    | ok c =>
      dsimp only
      rw [except_map_eq_ok]
      simp [hblank, eq_comm]

theorem readSegments_moved (h : readSegments i ps = .ok cs) (j : ℕ) : readSegments j ps = .ok cs := by
  induction ps generalizing i j cs with
  | nil => exact h
  | cons p ps ih =>
    rw [readSegments_cons] at h ⊢
    rcases h with ⟨hblank, hrest⟩ | ⟨hink, c, ds, hc, hrest, rfl⟩
    · exact .inl ⟨hblank, ih hrest _⟩
    · exact .inr ⟨hink, c, ds, hc, ih hrest _, rfl⟩

theorem readSegments_append (hps : readSegments i ps = .ok cs) {j : ℕ} (hqs : readSegments j qs = .ok ds) :
    readSegments i (ps ++ qs) = .ok (cs ++ ds) := by
  induction ps generalizing i cs with
  | nil =>
    obtain rfl := Except.ok.inj hps
    exact readSegments_moved hqs i
  | cons p ps ih =>
    rw [readSegments_cons] at hps
    rw [List.cons_append, readSegments_cons]
    rcases hps with ⟨hblank, hrest⟩ | ⟨hink, c, us, hc, hrest, rfl⟩
    · exact .inl ⟨hblank, ih hrest⟩
    · exact .inr ⟨hink, c, us ++ ds, hc, ih hrest, rfl⟩

theorem read_iff : read s = .ok cs ↔ readSegments 0 (segments .outside s) = .ok cs ∧ cs ≠ [] := by
  rw [read, except_bind_eq_ok]
  constructor
  · rintro ⟨us, hus, h⟩
    split at h
    · contradiction
    · next hne =>
      obtain rfl := Except.ok.inj h
      exact ⟨hus, by simpa using hne⟩
  · rintro ⟨hcs, hne⟩
    exact ⟨cs, hcs, if_neg (by simpa using hne)⟩

end Payload

namespace Delimiters

open Payload

variable {d : Delimiters} {p s t : List Char} {cs ds : Commands}

theorem payload?_joined (hd : d.Proper) (hsemicolon : ';' ∉ d.closing.toList)
    (hs : d.payload? (d.enclose s) = some s) (ht : d.payload? (d.enclose t) = some t) :
    d.payload? (d.enclose (s ++ ';' :: t)) = some (s ++ ';' :: t) := by
  rw [payload?_enclose_iff hd] at hs ht ⊢
  have hfirst : close d.closing.toList .outside 0 (s ++ d.closing.toList ++ []) = some (s, []) := by
    rwa [List.append_nil]
  have hempty : Text.stripPrefix? d.closing.toList [] = none := by
    obtain ⟨c, u, hc⟩ := List.exists_cons_of_ne_nil hd.closing
    rw [hc, Text.stripPrefix?]
  have hone : close d.closing.toList .outside 0 (';' :: (t ++ d.closing.toList)) = some (';' :: t, []) := by
    refine close_cons_iff.2 ⟨fun _ ↦ ?_, ht⟩
    exact Text.stripPrefix?_none_of_disjoint (s := []) (by simpa using hsemicolon) hempty
  rw [List.append_assoc, List.cons_append, close_resume hd.closing hfirst hsemicolon, hone]
  rfl

/-- Two payloads that are markers between the default delimiters, and are read, are one such payload with a
semicolon between them: the commands of the first and then those of the second. -/
theorem read_joined (hs : Delimiters.default.isMarker (Delimiters.default.enclose s) = true)
    (ht : Delimiters.default.isMarker (Delimiters.default.enclose t) = true) (hcs : Payload.read s = .ok cs)
    (hds : Payload.read t = .ok ds) :
    Delimiters.default.isMarker (Delimiters.default.enclose (s ++ ';' :: t)) = true ∧
      Delimiters.default.payload? (Delimiters.default.enclose (s ++ ';' :: t)) = some (s ++ ';' :: t) ∧
      Payload.read (s ++ ';' :: t) = .ok (cs ++ ds) := by
  have hd := proper_default
  rw [isMarker_enclose_iff] at hs ht ⊢
  have hjoined := payload?_joined hd (by decide) hs ht
  refine ⟨hjoined, hjoined, ?_⟩
  have hquotes : Quoting.outside.after s = .outside := by
    apply after_of_close hd.closing (b := [])
    rw [List.append_nil]
    exact (payload?_enclose_iff hd).1 hs
  rw [read_iff] at hcs hds ⊢
  rw [segments_append_semicolon hquotes]
  exact ⟨readSegments_append hcs.1 hds.1, by simp [hcs.2]⟩

/-- A short form with a bracket too many and a semicolon behind it, and a command with quotes, braces and a
semicolon inside a string. -/
theorem read_joined_strayBracket : ∃ cs ds, Payload.read "@a]; $x.y;".toList = .ok cs ∧
    Payload.read "If a:\x7bb:'\x7d\\';'\x7d".toList = .ok ds ∧
    Delimiters.default.isMarker (Delimiters.default.enclose "@a]; $x.y;".toList) = true ∧
    Delimiters.default.isMarker (Delimiters.default.enclose "If a:\x7bb:'\x7d\\';'\x7d".toList) = true ∧
    Payload.read ("@a]; $x.y;".toList ++ ';' :: "If a:\x7bb:'\x7d\\';'\x7d".toList) = .ok (cs ++ ds) := by
  have hcs : (Payload.read "@a]; $x.y;".toList).toBool = true := by decide +kernel
  have hds : (Payload.read "If a:\x7bb:'\x7d\\';'\x7d".toList).toBool = true := by decide +kernel
  have hs : Delimiters.default.isMarker (Delimiters.default.enclose "@a]; $x.y;".toList) = true := by decide +kernel
  have ht : Delimiters.default.isMarker (Delimiters.default.enclose "If a:\x7bb:'\x7d\\';'\x7d".toList) = true := by
    decide +kernel
  obtain ⟨cs, hcs⟩ := except_toBool.1 hcs
  obtain ⟨ds, hds⟩ := except_toBool.1 hds
  exact ⟨cs, ds, hcs, hds, hs, ht, (read_joined hs ht hcs hds).2.2⟩

end Delimiters

end Stencil
