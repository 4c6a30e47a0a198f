import Stencil.Proofs.Payload.Grammar
import Stencil.Proofs.Payload.Pieces
import Stencil.Proofs.Payload.Writing
/-!
What reading gives can be written again: names are words, keys come once, numbers fit. So a payload
that was read, written between delimiters, is found whole and reads back.
-/

namespace Stencil

theorem Json.readableEntries_iff {es : List (String × Json)} :
    ReadableEntries es ↔ ∀ e ∈ es, e.2.Readable := by
  induction es with
  | nil => simp [ReadableEntries]
  | cons e es ih => simp [ReadableEntries, ih]

theorem Json.readableEntries_put {es : Entries Json} {key : String} {v : Json} (h : ReadableEntries es)
    (hv : v.Readable) : ReadableEntries (es.put key v) := by
  rw [readableEntries_iff] at h ⊢
  intro e he
  rcases Entries.mem_put he with rfl | he
  · exact hv
  · exact h e he

namespace Payload

/-! ### Words -/

def Token.Named (t : Token) : Prop := ∀ w, t = .ident w → (∀ m ∈ w.head?, isMark m = false) → IsName w

theorem named_wordToken {v : List Char} (h : IsWord v) : (wordToken v).Named := by
  intro w hw _
  have hv : wordToken v = .ident v := by
    rw [wordToken] at hw ⊢
    split_ifs at hw ⊢
    rfl
  obtain rfl : v = w := Token.ident.inj (hv.symm.trans hw)
  exact ⟨h, hv⟩

theorem named_of_ne {t : Token} (h : ∀ w, t ≠ .ident w) : t.Named := fun w hw _ ↦ absurd hw (h w)

theorem scan_named {c : Char} {s w : List Char} {t : Token} (h : scan c s = (some t, w)) : t.Named := by
  cases scan_cases h with
  | word hstart => exact named_wordToken ⟨c, _, rfl, hstart, fun d hd ↦ List.all_eq_true.1 List.all_takeWhile d hd⟩
  | marked hmark =>
    intro w hw hhead
    obtain rfl := Token.ident.inj hw
    rw [hhead c (by simp)] at hmark
    contradiction
  | punctuation hmem =>
    refine named_of_ne ?_
    rintro w rfl
    simp [signs] at hmem
  | _ => exact named_of_ne (by simp)

theorem lexemesFrom_named (n i : ℕ) (s : List Char) : ∀ l ∈ lexemesFrom n i s, ∀ t, l.token? = some t → t.Named := by
  induction n generalizing i s with
  | zero => simp [lexemesFrom]
  | succ n ih =>
    cases s with
    | nil => simp [lexemesFrom]
    | cons c s =>
      rw [lexemesFrom]
      split
      · exact ih _ s
      · intro l hl t ht
        rcases List.mem_cons.1 hl with rfl | hl
        · exact scan_named (Prod.ext ht rfl)
        · exact ih _ _ l hl t ht

theorem tokensOf_named : ∀ {ls : List Lexeme} {ts : List Lexed}, tokensOf ls = .ok ts →
    (∀ l ∈ ls, ∀ t, l.token? = some t → t.Named) → ∀ l ∈ ts, l.token.Named
  | [], ts, h, _ => by
    obtain rfl := Except.ok.inj h
    simp
  | l :: ls, ts, h, hall => by
    rw [tokensOf] at h
    split at h
    · simp at h
    · next t ht =>
      obtain ⟨us, hus, rfl⟩ := except_map_eq_ok.1 h
      intro x hx
      rcases List.mem_cons.1 hx with rfl | hx
      · exact hall l (List.mem_cons_self ..) t ht
      · exact tokensOf_named hus (fun l hl ↦ hall l (List.mem_cons_of_mem _ hl)) x hx

/-! ### Values -/

theorem readableEntries_putAll {es ps : Entries Json} (hes : Json.ReadableEntries es) (hps : Json.ReadableEntries ps) :
    Json.ReadableEntries (es.putAll ps) := by
  induction ps generalizing es with
  | nil => exact hes
  | cons p ps ih => exact ih (Json.readableEntries_put hes hps.1) hps.2

theorem NumberText.readable {raw : List Char} {v : Json} (h : NumberText raw v) : v.Readable := by
  cases h with
  | whole hwhole => exact hwhole.2
  | float _ hfinite => exact hfinite

namespace Grammar

mutual

theorem Value.readable : ∀ {ts : List Token} {v : Json}, Value ts v → v.Readable
  | _, _, .yes => trivial
  | _, _, .no => trivial
  | _, _, .null => trivial
  | _, _, .ident => trivial
  | _, _, .double _ => trivial
  | _, _, .single => trivial
  | _, _, .number hnumber => hnumber.readable
  | _, _, .list hitems => hitems.readable
  | _, _, .object hpairs hes => by
    obtain rfl := Entries.gathers_iff.1 hes
    exact ⟨Entries.nodup_keys_ofPairs _, readableEntries_putAll trivial hpairs.readable⟩

theorem Items.readable : ∀ {ts : List Token} {vs : List Json}, Items ts vs → Json.ReadableItems vs
  | _, _, .nil => trivial
  | _, _, .last hvalue => ⟨hvalue.readable, trivial⟩
  | _, _, .more hvalue hitems => ⟨hvalue.readable, hitems.readable⟩

theorem Pairs.readable : ∀ {ts : List Token} {ps : List (String × Json)}, Pairs ts ps → Json.ReadableEntries ps
  | _, _, .nil => trivial
  | _, _, .last _ hvalue => ⟨hvalue.readable, trivial⟩
  | _, _, .more _ hvalue hpairs => ⟨hvalue.readable, hpairs.readable⟩

end

end Grammar

/-! ### Commands -/

theorem isName_insertion : IsName insertion.toList :=
  ⟨⟨'S', ['t', 'r', 'i', 'n', 'g'], rfl, rfl, List.all_eq_true.1 rfl⟩, by decide⟩

theorem shortForm?_writable {s : List Char} {c : Command} (h : shortForm? s = some (.ok c)) : c.Writable := by
  have hform : ∃ key path span?, c = ⟨insertion, [(key, .str path)], span?⟩ := by
    unfold shortForm? at h
    dsimp only at h
    split at h
    · split at h
      · simp at h
      · exact ⟨_, _, _, (Except.ok.inj (Option.some.inj h)).symm⟩
    · split at h
      · simp at h
      · exact ⟨_, _, _, (Except.ok.inj (Option.some.inj h)).symm⟩
    · simp at h
  obtain ⟨key, path, span?, rfl⟩ := hform
  exact ⟨isName_insertion.1, isName_insertion.2, List.nodup_singleton _, trivial, trivial⟩

theorem namedCommand_writable {s : List Char} {c : Command} (h : namedCommand s = .ok c) : c.Writable := by
  obtain ⟨first, rest, name, ps, hts, hfirst, hmark, hpairs, hname, hparams, -⟩ := namedCommand_iff.1 h
  have hnamed := tokensOf_named hts (lexemesFrom_named s.length 0 s) first (List.mem_cons_self ..)
  have hword : IsName name := hnamed name hfirst hmark
  obtain ⟨cname, cparams, span?⟩ := c
  obtain rfl : cname = String.ofList name := hname
  obtain rfl : cparams = Entries.ofPairs ps := Entries.gathers_iff.1 hparams
  refine ⟨?_, ?_, Entries.nodup_keys_ofPairs ps, readableEntries_putAll trivial hpairs.readable⟩
  · rw [String.toList_ofList]
    exact hword.1
  · rw [String.toList_ofList]
    exact hword.2

theorem readCommand_writable {s : List Char} {c : Command} (h : readCommand s = .ok c) : c.Writable := by
  rw [readCommand] at h
  split at h
  · next heq =>
    rw [h] at heq
    exact shortForm?_writable heq
  · exact namedCommand_writable h

theorem readSegments_writable : ∀ {ps : List (List Char)} {i : ℕ} {cs : Commands}, readSegments i ps = .ok cs →
    ∀ c ∈ cs, c.Writable
  | [], _, cs, h => by
    obtain rfl := Except.ok.inj h
    simp
  | p :: ps, i, cs, h => by
    rw [readSegments] at h
    split at h
    · exact readSegments_writable h
    · dsimp only at h
      split at h
      · simp at h
      · next c hc =>
        obtain ⟨ds, hds, rfl⟩ := except_map_eq_ok.1 h
        intro x hx
        rcases List.mem_cons.1 hx with rfl | hx
        · exact readCommand_writable hc
        · exact readSegments_writable hds x hx

/-- What reading gives is one command or more, each of which can be written. -/
theorem read_writable {s : List Char} {cs : Commands} (h : read s = .ok cs) : cs ≠ [] ∧ ∀ c ∈ cs, c.Writable := by
  obtain ⟨ds, hds, h⟩ := except_bind_eq_ok.1 h
  split at h
  · simp at h
  · next hne =>
    obtain rfl := Except.ok.inj h
    exact ⟨by simpa using hne, readSegments_writable hds⟩

end Payload

namespace Delimiters

open Payload

/-- A payload that was read, written into a marker, is found whole, and reads back: the same
commands with the same keys and values in the same order. -/
theorem marker_read {d : Delimiters} (hclosing : EndsBracket d.closing.toList) {s : List Char} {cs : Commands}
    (h : Payload.read s = .ok cs) : ∃ m ds, d.markerFrom? (d.marker cs).toList 0 = some m ∧
      d.span m = ⟨0, Text.width (d.marker cs).toList⟩ ∧ Payload.read m.payload = .ok ds ∧ Commands.Agree ds cs := by
  obtain ⟨hne, hwritable⟩ := read_writable h
  obtain ⟨ds, hds, hagree⟩ := read_write hne hwritable
  have htext : (d.marker cs).toList = d.enclose (write cs) := by rw [marker, String.toList_ofList]
  refine ⟨⟨0, write cs⟩, ds, ?_, ?_, hds, hagree⟩
  · have hfound := markerFrom?_enclose_level hclosing (level_write fun c hc ↦ (hwritable c hc).word) []
    rw [List.append_nil] at hfound
    rw [htext, hfound]
  · rw [htext, span]
    simp

/-- Two commands with a nested value, a keyword for a key, and the closing delimiter inside quotes. -/
theorem marker_read_nested : ∃ cs, Payload.read "If true:\x7b'a;b':[-1, x]\x7d, not:'; ]>'; @x.y".toList = .ok cs ∧
    ∃ m ds, markerFrom? ⟨"<<", "]>"⟩ (marker ⟨"<<", "]>"⟩ cs).toList 0 = some m ∧
      span ⟨"<<", "]>"⟩ m = ⟨0, Text.width (marker ⟨"<<", "]>"⟩ cs).toList⟩ ∧
      Payload.read m.payload = .ok ds ∧ Commands.Agree ds cs := by
  have hread : (Payload.read "If true:\x7b'a;b':[-1, x]\x7d, not:'; ]>'; @x.y".toList).toBool = true := by decide +kernel
  cases h : Payload.read "If true:\x7b'a;b':[-1, x]\x7d, not:'; ]>'; @x.y".toList with
  | error e =>
    rw [h] at hread
    contradiction
  | ok cs => exact ⟨cs, rfl, marker_read ⟨']', ['>'], by decide +kernel, .inr rfl⟩ h⟩

end Delimiters

end Stencil
