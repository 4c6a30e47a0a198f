import Stencil.Inspection
import Stencil.Proofs.Document.Lines
import Stencil.Proofs.Run.Ahead
/-!
The sites of a template are the markers ahead of the root of its document. Those of a line are the leftmost
markers in it, and no two start at the same byte.
-/

namespace Stencil

namespace Text

variable {a b p s : List Char}

theorem width_pos (h : s ≠ []) : 0 < width s := by
  cases s with
  | nil => contradiction
  | cons c s =>
    have := c.utf8Size_pos
    rw [width_cons]
    omega

/-- Of two stretches at the beginning of a text, the one of fewer bytes is at the beginning of the other. -/
theorem isPrefix_of_width_le (ha : a <+: s) (hb : b <+: s) (h : width a ≤ width b) : a <+: b := by
  rcases List.prefix_or_prefix_of_prefix ha hb with hab | ⟨t, rfl⟩
  · exact hab
  · have ht : t = [] := by
      by_contra ht
      have := width_pos ht
      rw [width_append] at h
      omega
    rw [ht, List.append_nil]

theorem eq_of_width_eq (ha : a <+: s) (hb : b <+: s) (h : width a = width b) : a = b := by
  have hab := isPrefix_of_width_le ha hb h.le
  have hba := isPrefix_of_width_le hb ha h.ge
  exact hab.eq_of_length_le hba.length_le

theorem breakOn?_occurrence (p a t : List Char) : ∃ x r, breakOn? p (a ++ p ++ t) = some (x, r) ∧ x <+: a := by
  induction a with
  | nil => exact ⟨[], t, breakOn?_self_append p t, List.prefix_rfl⟩
  | cons c a ih =>
    rw [List.cons_append, List.cons_append, breakOn?]
    split
    · next r _ => exact ⟨[], r, rfl, List.nil_prefix⟩
    · obtain ⟨x, r, hbreak, hx⟩ := ih
      exact ⟨c :: x, r, by rw [hbreak]; rfl, (List.prefix_cons_inj c).2 hx⟩

end Text

namespace Delimiters

open Payload

variable {d : Delimiters} {i : ℕ} {s p a b : List Char} {m : Marker}

/-! ### Leftmost markers -/

/-- A marker of a text that starts at byte `i`, wherever it stands. -/
def MarkerAt (d : Delimiters) (i : ℕ) (s : List Char) (m : Marker) : Prop :=
  ∃ a b, s = a ++ d.enclose m.payload ++ b ∧ m.start = i + Text.width a ∧ d.isMarker (d.enclose m.payload) = true

/-- An opening delimiter at which no marker starts. -/
def UnclosedAt (d : Delimiters) (i : ℕ) (s : List Char) (j : ℕ) : Prop :=
  (∃ a b, s = a ++ d.opening.toList ++ b ∧ j = i + Text.width a) ∧ ∀ p, ¬d.MarkerAt i s ⟨j, p⟩

/-- The markers that are come by from the left, with none left in the text between them. Not come by are
those that start within another one, or within an opening delimiter that stands there as text. -/
structure Leftmost (d : Delimiters) (i : ℕ) (s : List Char) (ms : List Marker) : Prop where
  marker : ∀ m ∈ ms, d.MarkerAt i s m
  apart : ms.Pairwise fun m m' ↦ (d.span m).stop ≤ m'.start
  between : ∀ m, d.MarkerAt i s m → m ∈ ms ∨ (∃ m' ∈ ms, m'.start < m.start ∧ m.start < (d.span m').stop) ∨
    ∃ j, d.UnclosedAt i s j ∧ j < m.start ∧ m.start < j + Text.width d.opening.toList ∧
      ∀ m' ∈ ms, (d.span m').stop ≤ j ∨ j + Text.width d.opening.toList ≤ m'.start

theorem width_enclose_pos (hd : d.Proper) (p : List Char) : 0 < Text.width (d.enclose p) := by
  have := Text.width_pos hd.opening
  rw [enclose, Text.width_append, Text.width_append]
  omega

theorem close_of_isMarker (hd : d.Proper) (hp : d.isMarker (d.enclose p) = true) (b : List Char) :
    close d.closing.toList .outside 0 (p ++ d.closing.toList ++ b) = some (p, b) := by
  have hclose := (payload?_enclose_iff hd).1 (isMarker_enclose_iff.1 hp)
  exact close_append hclose b

/-- How the first cut is made in a text that has a marker: at the marker, before it, or nowhere before the end
of an opening delimiter that the marker starts in and that stands there as text. -/
theorem cut?_of_marker (hd : d.Proper) (hp : d.isMarker (d.enclose p) = true) : ∀ (s a b : List Char),
    s = a ++ d.enclose p ++ b →
    (∃ c, d.cut? s = some c ∧ (c.before = a ∧ c.payload = p ∨ Text.width c.before < Text.width a)) ∨
    ∃ x r, s = x ++ d.opening.toList ++ r ∧ close d.closing.toList .outside 0 r = none ∧
      Text.width x < Text.width a ∧ Text.width a < Text.width (x ++ d.opening.toList) ∧
      ∀ c ∈ d.cut? s, x ++ d.opening.toList <+: c.before := by
  intro s
  induction hn : s.length using Nat.strong_induction_on generalizing s with
  | _ n ih =>
  intro a b hs
  have hs' : s = a ++ d.opening.toList ++ (p ++ d.closing.toList ++ b) := by simp [hs, enclose]
  obtain ⟨x, r, hbreak, ⟨y, rfl⟩⟩ := Text.breakOn?_occurrence d.opening.toList a (p ++ d.closing.toList ++ b)
  rw [← hs'] at hbreak
  have hcut := cut?_of_break hd.opening hbreak
  have hsr := Text.eq_append_of_breakOn? hbreak
  have hr : d.opening.toList ++ r = y ++ (d.enclose p ++ b) := by
    have := hsr.symm.trans hs
    simpa using this
  rcases eq_or_ne y [] with rfl | hy
  · -- the first opening delimiter is the marker's own
    obtain rfl : r = p ++ d.closing.toList ++ b := by simpa [enclose] using hr
    rw [close_of_isMarker hd hp b] at hcut
    exact .inl ⟨_, hcut, .inl ⟨by simp, rfl⟩⟩
  · have hpos := Text.width_pos hy
    have hbefore : Text.width x < Text.width (x ++ y) := by
      rw [Text.width_append]
      omega
    cases hclose : close d.closing.toList .outside 0 r with
    | some pb =>
      rw [hclose] at hcut
      exact .inl ⟨_, hcut, .inr hbefore⟩
    | none =>
      rw [hclose] at hcut
      rcases Nat.lt_or_ge (Text.width y) (Text.width d.opening.toList) with hlt | hge
      · refine .inr ⟨x, r, hsr, hclose, hbefore, ?_, fun c hc ↦ ?_⟩
        · rw [Text.width_append, Text.width_append]
          omega
        · obtain ⟨c', -, rfl⟩ := Option.map_eq_some_iff.1 (hcut.symm.trans hc)
          exact ⟨c'.before, rfl⟩
      · -- the marker lies behind that delimiter
        obtain ⟨z, rfl⟩ := Text.isPrefix_of_width_le ⟨r, hr⟩ (List.prefix_append y _) hge
        have hrz : r = z ++ d.enclose p ++ b := by simpa using hr
        have hlen := congrArg List.length hsr
        have hopening := List.length_pos_iff.2 hd.opening
        simp only [List.length_append] at hlen
        rcases ih r.length (by omega) r rfl z b hrz with ⟨c, hc, hcase⟩ | ⟨x', r', hx', hclose', hlt, hlt', hpre⟩
        · rw [hc] at hcut
          refine .inl ⟨_, hcut, ?_⟩
          rcases hcase with ⟨rfl, rfl⟩ | hwidth
          · exact .inl ⟨by simp, rfl⟩
          · refine .inr ?_
            simp only [Text.width_append] at hwidth ⊢
            omega
        · refine .inr ⟨x ++ d.opening.toList ++ x', r', by rw [hsr, hx']; simp, hclose', ?_, ?_, fun c hc ↦ ?_⟩
          · simp only [Text.width_append] at hlt ⊢
            omega
          · simp only [Text.width_append] at hlt' ⊢
            omega
          · obtain ⟨c', hc', rfl⟩ := Option.map_eq_some_iff.1 (hcut.symm.trans hc)
            have := (List.prefix_append_right_inj (x ++ d.opening.toList)).2 (hpre c' hc')
            simpa using this

theorem unclosedAt_of_close (hd : d.Proper) {x r : List Char} (hs : s = x ++ d.opening.toList ++ r)
    (hclose : close d.closing.toList .outside 0 r = none) : d.UnclosedAt i s (i + Text.width x) := by
  refine ⟨⟨x, r, hs, rfl⟩, ?_⟩
  rintro p ⟨a, b, ha, hstart, hp⟩
  have hwidth : Text.width x = Text.width a := by
    dsimp only at hstart
    omega
  have hxs : x <+: s := ⟨d.opening.toList ++ r, by rw [hs, List.append_assoc]⟩
  have has : a <+: s := ⟨d.enclose p ++ b, by rw [ha, List.append_assoc]⟩
  obtain rfl := Text.eq_of_width_eq hxs has hwidth
  obtain rfl : r = p ++ d.closing.toList ++ b := by
    have := hs.symm.trans ha
    simpa [enclose] using this
  rw [close_of_isMarker hd hp b] at hclose
  contradiction

namespace MarkerAt

variable {x : List Char}

theorem append_left (h : d.MarkerAt (i + Text.width x) s m) : d.MarkerAt i (x ++ s) m := by
  obtain ⟨a, b, rfl, hstart, hp⟩ := h
  refine ⟨x ++ a, b, by simp, ?_, hp⟩
  rw [hstart, Text.width_append]
  omega

theorem of_append_left (h : d.MarkerAt i (x ++ s) m) (hle : i + Text.width x ≤ m.start) :
    d.MarkerAt (i + Text.width x) s m := by
  obtain ⟨a, b, hs, hstart, hp⟩ := h
  have has : a <+: x ++ s := ⟨d.enclose m.payload ++ b, by rw [hs, List.append_assoc]⟩
  obtain ⟨a', rfl⟩ := Text.isPrefix_of_width_le (List.prefix_append x s) has (by omega)
  refine ⟨a', b, by simpa using hs, ?_, hp⟩
  rw [hstart, Text.width_append]
  omega

theorem le_start (h : d.MarkerAt i s m) : i ≤ m.start ∧ (d.span m).stop ≤ i + Text.width s := by
  obtain ⟨a, b, rfl, hstart, -⟩ := h
  simp only [span, Text.width_append]
  omega

end MarkerAt

theorem UnclosedAt.append_left {x : List Char} {j : ℕ} (h : d.UnclosedAt (i + Text.width x) s j) : d.UnclosedAt i (x ++ s) j := by
  obtain ⟨⟨a, b, rfl, rfl⟩, hnone⟩ := h
  refine ⟨⟨x ++ a, b, by simp, by rw [Text.width_append]; omega⟩, fun p hp ↦ hnone p (hp.of_append_left ?_)⟩
  dsimp only
  omega

/-- The markers that a scan lists are the leftmost ones. -/
theorem leftmost_markersFrom (hd : d.Proper) : ∀ (n i : ℕ) (s : List Char), s.length < n →
    d.Leftmost i s (d.markersFrom n i s) := by
  intro n
  induction n with
  | zero =>
    intro i s h
    omega
  | succ n ih =>
    intro i s hlen
    rw [markersFrom]
    cases hcut : d.cut? s with
    | none =>
      refine ⟨by simp, .nil, fun m hm ↦ .inr (.inr ?_)⟩
      obtain ⟨a, b, hs, hstart, hp⟩ := hm
      rcases cut?_of_marker hd hp s a b hs with ⟨c, hc, -⟩ | ⟨x, r, hx, hclose, hlt, hlt', -⟩
      · rw [hcut] at hc
        contradiction
      · rw [Text.width_append] at hlt'
        exact ⟨_, unclosedAt_of_close hd hx hclose, by omega, by omega, by simp⟩
    | some c =>
      have hs := cut?_eq_append hcut
      have hwidth : Text.width (c.before ++ d.enclose c.payload) =
        Text.width c.before + Text.width (d.enclose c.payload) := Text.width_append ..
      have hpos := width_enclose_pos hd c.payload
      have hrest := ih (i + Text.width (c.before ++ d.enclose c.payload)) c.after (by
        have := after_length hd hcut
        omega)
      have hstop : (d.span ⟨i + Text.width c.before, c.payload⟩).stop =
          i + Text.width (c.before ++ d.enclose c.payload) := by
        rw [span, hwidth, Nat.add_assoc]
      dsimp only
      rw [hstop]
      generalize d.markersFrom n (i + Text.width (c.before ++ d.enclose c.payload)) c.after = ms at hrest
      refine ⟨fun m hm ↦ ?_, List.pairwise_cons.2 ⟨fun m hm ↦ ?_, hrest.apart⟩, fun m hm ↦ ?_⟩
      · rcases List.mem_cons.1 hm with rfl | hm
        · exact ⟨c.before, c.after, hs, rfl, by rw [isMarker, payload?_enclose hd.closing hcut]; rfl⟩
        · rw [hs]
          exact (hrest.marker m hm).append_left
      · rw [hstop]
        exact (hrest.marker m hm).le_start.1
      · have hbehind : ∀ m' ∈ ms, i + Text.width c.before ≤ m'.start := by
          intro m' hm'
          have := (hrest.marker m' hm').le_start.1
          omega
        have hm' := hm
        obtain ⟨a, b, ha, hstart, hp⟩ := hm'
        rcases cut?_of_marker hd hp s a b ha with ⟨c', hc', hcase⟩ | ⟨x, r, hx, hclose, hlt, hlt', hpre⟩
        · obtain rfl := Option.some.inj (hcut.symm.trans hc')
          rcases hcase with ⟨rfl, hpayload⟩ | hlt
          · refine .inl (List.mem_cons.2 (.inl ?_))
            rw [← hstart, hpayload]
          rcases Nat.lt_or_ge m.start (i + Text.width (c.before ++ d.enclose c.payload)) with hin | hout
          · refine .inr (.inl ⟨_, List.mem_cons_self .., ?_, by rw [hstop]; exact hin⟩)
            dsimp only
            omega
          · rw [hs] at hm
            rcases hrest.between m (hm.of_append_left hout) with hmem | ⟨m', hm', hin⟩ | ⟨j, hj, hlt, hlt', hsep⟩
            · exact .inl (List.mem_cons_of_mem _ hmem)
            · exact .inr (.inl ⟨m', List.mem_cons_of_mem _ hm', hin⟩)
            · refine .inr (.inr ⟨j, by rw [hs]; exact hj.append_left, hlt, hlt', fun m' hm' ↦ ?_⟩)
              rcases List.mem_cons.1 hm' with rfl | hm'
              · obtain ⟨⟨a', b', -, rfl⟩, -⟩ := hj
                rw [hstop]
                exact .inl (Nat.le_add_right ..)
              · exact hsep m' hm'
        · obtain ⟨y, hy⟩ := hpre c hcut
          have hle := congrArg Text.width hy
          simp only [Text.width_append] at hle hlt'
          refine .inr (.inr ⟨_, unclosedAt_of_close hd hx hclose, by omega, by omega, fun m' hm' ↦ .inr ?_⟩)
          rcases List.mem_cons.1 hm' with rfl | hm'
          · dsimp only
            omega
          · have := hbehind m' hm'
            omega

theorem leftmost_markers (hd : d.Proper) (s : List Char) : d.Leftmost 0 s (d.markers s) :=
  leftmost_markersFrom hd _ _ _ (Nat.lt_succ_self _)

end Delimiters

namespace Site

variable {d : Delimiters} {s : Site}

theorem payload_ofLine (hd : d.Proper) (number start : ℕ) (line : List Char) :
    (ofLine d number start line).map Site.payload = d.payloads line := by
  rw [ofLine, List.map_map, ← Delimiters.markers_payload hd]
  rfl

theorem payload_ofLines (hd : d.Proper) : ∀ (lines : List (List Char)) (number start : ℕ),
    (ofLines d number start lines).map Site.payload = lines.flatMap d.payloads := by
  intro lines
  induction lines with
  | nil => exact fun _ _ ↦ rfl
  | cons line lines ih =>
    intro number start
    rw [ofLines, List.map_append, payload_ofLine hd, ih, List.flatMap_cons]

theorem le_line_ofLines : ∀ (lines : List (List Char)) (number start : ℕ), ∀ s ∈ ofLines d number start lines,
    number ≤ s.line := by
  intro lines
  induction lines with
  | nil => simp [ofLines]
  | cons line lines ih =>
    intro number start s hs
    rcases List.mem_append.1 hs with hs | hs
    · obtain ⟨m, -, rfl⟩ := List.mem_map.1 hs
      exact le_rfl
    · exact (Nat.le_succ number).trans (ih _ _ s hs)

theorem filter_ofLines {k : ℕ} {line : List Char} : ∀ (lines : List (List Char)) (number start : ℕ), lines[k]? = some line →
    (ofLines d number start lines).filter (fun s ↦ s.line = number + k) =
      ofLine d (number + k) (start + Text.width (lines.take k).flatten) line := by
  induction k with
  | zero =>
    intro lines number start h
    obtain ⟨l, rest, rfl⟩ := List.exists_cons_of_ne_nil (show lines ≠ [] by rintro rfl; simp at h)
    obtain rfl : l = line := by simpa using h
    have hfirst : (ofLine d number start l).filter (fun s ↦ s.line = number + 0) = ofLine d number start l := by
      rw [List.filter_eq_self]
      intro s hs
      obtain ⟨m, -, rfl⟩ := List.mem_map.1 hs
      simp
    have hrest : (ofLines d (number + 1) (start + Text.width l) rest).filter (fun s ↦ s.line = number + 0) = [] := by
      rw [List.filter_eq_nil_iff]
      intro s hs
      have := le_line_ofLines _ _ _ s hs
      simp only [decide_eq_true_eq]
      omega
    rw [ofLines, List.filter_append, hfirst, hrest]
    simp
  | succ k ih =>
    intro lines number start h
    obtain ⟨l, rest, rfl⟩ := List.exists_cons_of_ne_nil (show lines ≠ [] by rintro rfl; simp at h)
    have hfirst : (ofLine d number start l).filter (fun s ↦ s.line = number + (k + 1)) = [] := by
      rw [List.filter_eq_nil_iff]
      intro s hs
      obtain ⟨m, -, rfl⟩ := List.mem_map.1 hs
      simp
    have hrest := ih rest (number + 1) (start + Text.width l) (by simpa using h)
    rw [ofLines, List.filter_append, hfirst, List.nil_append, show number + (k + 1) = number + 1 + k by omega, hrest,
      List.take_succ_cons, List.flatten_cons, Text.width_append, Nat.add_assoc start]

theorem ahead_ofText (hd : d.Inline) (serial : ℕ) (source : String) :
    (Document.ofText serial source).Ahead d (some (Document.ofText serial source).root)
      ((ofTemplate d source).map Site.payload) := by
  obtain ⟨page, hshows, hcontents⟩ := Document.shows_ofText serial source
  have hlines : Paragraph.payloadsOf d page = (Text.lines source.toList).flatMap d.payloads := by
    rw [Paragraph.payloadsOf, Document.lines_ofText hcontents, List.flatMap_map]
    rfl
  have hpayloads : (ofTemplate d source).map Site.payload = Paragraph.payloadsOf d page := by
    rw [hlines, ofTemplate, payload_ofLines hd.toProper, Text.lines, List.flatMap_map]
    exact List.flatMap_congr fun line _ ↦ (Delimiters.payloads_chomp hd line).symm
  rw [hpayloads]
  exact .root hshows

theorem marker_of_mem {source : String} (h : s ∈ ofTemplate d source) :
    s.marker = String.ofList (d.enclose s.payload) := by
  have hlines : ∀ (lines : List (List Char)) (number start : ℕ), s ∈ ofLines d number start lines →
      s.marker = String.ofList (d.enclose s.payload) := by
    intro lines
    induction lines with
    | nil => simp [ofLines]
    | cons line lines ih =>
      intro number start hs
      rcases List.mem_append.1 hs with hs | hs
      · obtain ⟨m, -, rfl⟩ := List.mem_map.1 hs
        rfl
      · exact ih _ _ hs
  exact hlines _ _ _ h

theorem ofLine_ordered (hd : d.Proper) (number start : ℕ) (line : List Char) :
    (∀ s ∈ ofLine d number start line, start ≤ s.start ∧ s.start < start + Text.width line) ∧
      (ofLine d number start line).Pairwise fun s s' ↦ s.start < s'.start := by
  have hleftmost := Delimiters.leftmost_markers hd line
  have hclosing := Text.width_pos hd.closing
  have hwidth : ∀ p, Text.width (d.enclose p) = Text.width d.opening.toList + Text.width p + Text.width d.closing.toList := by
    intro p
    rw [Delimiters.enclose, Text.width_append, Text.width_append]
  refine ⟨fun s hs ↦ ?_, List.pairwise_map.2 (hleftmost.apart.imp fun h ↦ ?_)⟩
  · obtain ⟨m, hm, rfl⟩ := List.mem_map.1 hs
    have := (hleftmost.marker m hm).le_start.2
    simp only [Delimiters.span, hwidth] at this
    simp only [Delimiters.payloadSpan]
    omega
  · simp only [Delimiters.span, hwidth] at h
    simp only [Delimiters.payloadSpan]
    omega

theorem ordered_ofTemplate (hd : d.Proper) (source : String) :
    (ofTemplate d source).Pairwise fun s s' ↦ s.start < s'.start := by
  have hlines : ∀ (lines : List (List Char)) (number start : ℕ),
      (∀ s ∈ ofLines d number start lines, start ≤ s.start) ∧
        (ofLines d number start lines).Pairwise fun s s' ↦ s.start < s'.start := by
    intro lines
    induction lines with
    | nil => exact fun _ _ ↦ ⟨by simp [ofLines], by simp [ofLines]⟩
    | cons line lines ih =>
      intro number start
      obtain ⟨hbounds, hordered⟩ := ofLine_ordered hd number start line
      obtain ⟨hbounds', hordered'⟩ := ih (number + 1) (start + Text.width line)
      refine ⟨fun s hs ↦ ?_, List.pairwise_append.2 ⟨hordered, hordered', fun s hs s' hs' ↦ ?_⟩⟩
      · rcases List.mem_append.1 hs with hs | hs
        · exact (hbounds s hs).1
        · exact (Nat.le_add_right ..).trans (hbounds' s hs)
      · exact (hbounds s hs).2.trans_le (hbounds' s' hs')
  exact (hlines _ 1 0).2

theorem nodup_ofTemplate (hd : d.Proper) (source : String) : (ofTemplate d source).Nodup :=
  (ordered_ofTemplate hd source).imp fun h heq ↦ by
    rw [heq] at h
    exact absurd h (lt_irrefl _)

end Site

end Stencil
