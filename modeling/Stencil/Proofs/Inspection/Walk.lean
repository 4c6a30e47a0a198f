import Stencil.Proofs.Inspection.Sites
import Stencil.Proofs.Run.Course
/-!
The inspection of a template lists what a walk through the placeholders of its document meets. The walk cuts
every marker out of the text that it stands in, so that in the end each is a leaf of its own.
-/

namespace Stencil

open Document (ahead? FoundBelow Found)

variable {t : Delimiters} {d e f : Document}

/-! ### Walks -/

namespace Document

/-- A walk through the placeholders of a document: each search goes on behind what the one before it found.
Placeholders are listed with the texts that they held when they were found. -/
inductive Walk (t : Delimiters) : Document → Option NodeId → List (NodeId × String) → Document → Prop where
  | ended {d : Document} : Walk t d none [] d
  | nothing {d e : Document} {id : NodeId} {split? : Option (NodeId × String)} :
      d.search t id = ⟨e, split?, .ok none⟩ → Walk t d (some id) [] e
  | met {d e f : Document} {id m : NodeId} {s : String} {split? : Option (NodeId × String)} {ms : List (NodeId × String)} :
      d.search t id = ⟨e, split?, .ok (some m)⟩ → e.text? m = some s → Walk t e (e.nextAfter? m) ms f →
      Walk t d (some id) ((m, s) :: ms) f

/-- The number of the line that a node stands in, counted from one. -/
def line? (d : Document) (id : NodeId) : Option ℕ := (d.indexInParent? (d.blockOf id)).map (· + 1)

theorem Walk.unique {start? : Option NodeId} {ms ms' : List (NodeId × String)} {e' : Document}
    (h : Walk t d start? ms e) (h' : Walk t d start? ms' e') : ms = ms' ∧ e = e' := by
  induction h generalizing ms' e' with
  | ended =>
    cases h'
    exact ⟨rfl, rfl⟩
  | nothing hsearch =>
    cases h' with
    | nothing hsearch' =>
      rw [hsearch] at hsearch'
      cases hsearch'
      exact ⟨rfl, rfl⟩
    | met hsearch' =>
      rw [hsearch] at hsearch'
      cases hsearch'
  | met hsearch htext _ ih =>
    cases h' with
    | nothing hsearch' =>
      rw [hsearch] at hsearch'
      cases hsearch'
    | met hsearch' htext' hwalk =>
      rw [hsearch] at hsearch'
      cases hsearch'
      obtain ⟨rfl, rfl⟩ := ih hwalk
      rw [htext] at htext'
      cases htext'
      exact ⟨rfl, rfl⟩

theorem Shows.line?_leaf {above below : List Paragraph} {b : Paragraph} {l : Leaf} (h : d.Shows (above ++ b :: below))
    (hl : l ∈ b.leaves) : d.line? l.id = some (above.length + 1) := by
  rw [line?, h.blockOf_leaf (b := b) (by simp) hl, h.indexInParent?_block, Option.map_some]

end Document

/-! ### Leaves that a walk has passed -/

def Leaf.mark? (t : Delimiters) (l : Leaf) : Option (NodeId × String) :=
  match l.content with
  | .text s => if t.isMarker s.toList then some (l.id, s) else none
  | .image _ => none

def Leaf.marks (t : Delimiters) (ls : List Leaf) : List (NodeId × String) := ls.filterMap (Leaf.mark? t)

/-- Every marker in the text of some leaves is a leaf of its own. -/
def Leaf.Swept (t : Delimiters) (ls : List Leaf) : Prop :=
  (marks t ls).map Prod.snd = (Piece.payloads (piecesOf t ls)).map fun p ↦ String.ofList (t.enclose p)

def Paragraph.marks (t : Delimiters) (bs : List Paragraph) : List (NodeId × String) := bs.flatMap fun b ↦ Leaf.marks t b.leaves

section Leaves

variable {ls front back old back' : List Leaf} {payload : List Char} {m : Leaf} {b : Paragraph}

theorem Leaf.marks_append (t : Delimiters) (a b : List Leaf) : marks t (a ++ b) = marks t a ++ marks t b :=
  List.filterMap_append

theorem Leaf.marks_uncut (h : ∀ l ∈ ls, l.content.cut? t = none) : marks t ls = [] := by
  apply List.filterMap_eq_nil_iff.2
  intro l hl
  have hcut := h l hl
  rw [mark?]
  cases hc : l.content with
  | image => rfl
  | text s =>
    rw [hc, Content.cut?] at hcut
    simp [Delimiters.isMarker, Delimiters.payload?, hcut]

theorem Leaf.swept_uncut (h : ∀ l ∈ ls, l.content.cut? t = none) : Swept t ls := by
  rw [Swept, marks_uncut h, Piece.payloads_of_words (words_of_uncut h)]
  rfl

theorem Leaf.text?_of_mark? {above below : List Paragraph} {l : Leaf} {x : NodeId × String} (h : d.Shows (above ++ b :: below))
    (hl : l ∈ b.leaves) (hx : l.mark? t = some x) :
    x.1 = l.id ∧ d.text? x.1 = some x.2 ∧ t.isMarker x.2.toList = true := by
  have htext := h.text?_leaf (b := b) (by simp) hl
  rw [mark?] at hx
  cases hc : l.content with
  | image => simp [hc] at hx
  | text s =>
    rw [hc] at hx htext
    dsimp only at hx
    split at hx
    · next hs =>
      obtain rfl := Option.some.inj hx
      exact ⟨rfl, htext, hs⟩
    · contradiction

theorem Cutout.marks (h : Cutout t d old payload front m back) (ht : t.Proper) (ls : List Leaf) :
    Leaf.marks t (front ++ m :: ls) = (m.id, String.ofList (t.enclose payload)) :: Leaf.marks t ls := by
  have hmark : m.mark? t = some (m.id, String.ofList (t.enclose payload)) := by
    simp [Leaf.mark?, h.content, Delimiters.isMarker, h.read ht]
  rw [Leaf.marks_append, Leaf.marks_uncut (h.words ht), List.nil_append, Leaf.marks, List.filterMap_cons, hmark]
  rfl

theorem Cutout.piecesOf (h : Cutout t d old payload front m back) (ht : t.Proper)
    (hback : Leaf.piecesOf t back' = Leaf.piecesOf t back) :
    Leaf.piecesOf t (front ++ m :: back') = Leaf.piecesOf t old := by
  rw [h.pieces ht, Leaf.piecesOf_append, Leaf.piecesOf_cons, h.mark ht, hback]
  rfl

theorem Cutout.swept (h : Cutout t d old payload front m back) (ht : t.Proper) (hback : Leaf.Swept t back') :
    Leaf.Swept t (front ++ m :: back') := by
  have hfront := Piece.payloads_of_words (words_of_uncut (h.words ht))
  rw [Leaf.Swept] at hback
  rw [Leaf.Swept, h.marks ht, List.map_cons, hback, Leaf.piecesOf_append, Leaf.piecesOf_cons, h.mark ht,
    Piece.payloads_append, hfront, List.nil_append, List.singleton_append, Piece.payloads_marker, List.map_cons]

end Leaves

/-- What stands in the place of some blocks when a walk has passed them: their pieces are still there, and the
walk has met the markers among them. -/
structure Paragraph.Swept (t : Delimiters) (old new : List Paragraph) (ms : List (NodeId × String)) : Prop where
  lines : new.map (Paragraph.line t) = old.map (Paragraph.line t)
  swept : ∀ b ∈ new, Leaf.Swept t b.leaves
  marks : ms = Paragraph.marks t new

theorem Paragraph.swept_uncut {bs : List Paragraph} (h : ∀ b ∈ bs, ∀ l ∈ b.leaves, l.content.cut? t = none) :
    Swept t bs bs [] := by
  have hmarks : Paragraph.marks t bs = [] := by
    apply List.flatMap_eq_nil_iff.2
    intro b hb
    exact Leaf.marks_uncut (h b hb)
  refine ⟨rfl, ?_, hmarks.symm⟩
  intro b hb
  exact Leaf.swept_uncut (h b hb)

theorem Paragraph.Swept.append {old new old' new' : List Paragraph} {ms ms' : List (NodeId × String)}
    (h : Swept t old new ms) (k : Swept t old' new' ms') : Swept t (old ++ old') (new ++ new') (ms ++ ms') := by
  refine ⟨?_, ?_, ?_⟩
  · rw [List.map_append, List.map_append, h.lines, k.lines]
  · intro b hb
    rcases List.mem_append.1 hb with hb | hb
    · exact h.swept b hb
    · exact k.swept b hb
  · rw [h.marks, k.marks, Paragraph.marks, Paragraph.marks, Paragraph.marks, List.flatMap_append]

namespace Document

/-! ### What a walk meets -/

/-- A walk from within a block: the leaves behind that place, and the blocks below. -/
def WalksWithin (t : Delimiters) (d : Document) (above : List Paragraph) (bid : NodeId) (left right : List Leaf)
    (below : List Paragraph) : Prop :=
  ∃ ms ms' e right' below', Walk t d (ahead? right below) (ms ++ ms') e ∧ e.Shows (above ++ ⟨bid, left ++ right'⟩ :: below') ∧
    Leaf.piecesOf t right' = Leaf.piecesOf t right ∧ Leaf.Swept t right' ∧ ms = Leaf.marks t right' ∧
    Paragraph.Swept t below below' ms'

theorem walks_below {above below : List Paragraph} {id : NodeId} {split? : Option (NodeId × String)} {result : Option NodeId}
    (ht : t.Proper) (hshows : d.Shows (above ++ below)) (hsearch : d.search t id = ⟨e, split?, .ok result⟩)
    (hfound : FoundBelow t d e above below result)
    (hnext : ∀ above' bid left right below', e.Shows (above' ++ ⟨bid, left ++ right⟩ :: below') →
      Piece.markers (Leaf.piecesOf t right) + Piece.markersIn (below'.map (Paragraph.line t)) <
        Piece.markersIn (below.map (Paragraph.line t)) → WalksWithin t e above' bid left right below') :
    ∃ ms f below', Walk t d (some id) ms f ∧ f.Shows (above ++ below') ∧ Paragraph.Swept t below below' ms := by
  cases hfound with
  | nothing hsame hnone =>
    subst hsame
    exact ⟨[], e, below, .nothing hsearch, hshows, Paragraph.swept_uncut hnone⟩
  | @marker payload front back m mid below' b hbelow hmid hshows' hcut =>
    subst hbelow
    have hshows'' : e.Shows ((above ++ mid) ++ ⟨b.id, (front ++ [m]) ++ back⟩ :: below') := by simpa using hshows'
    have hcount : Piece.markersIn ((mid ++ b :: below').map (Paragraph.line t)) =
        1 + Piece.markers (Leaf.piecesOf t back) + Piece.markersIn (below'.map (Paragraph.line t)) := by
      rw [List.map_append, Piece.markersIn_append, Piece.markersIn_words (words_of_uncut_all hmid), Piece.markersIn,
        List.map_cons, List.map_cons, List.sum_cons, Paragraph.line, hcut.markers ht, Piece.markersIn]
      omega
    obtain ⟨ms, ms', f, right', below'', hwalk, hpage, hpieces, hswept, rfl, hrest⟩ :=
      hnext _ _ _ _ _ hshows'' (by omega)
    have htext : e.text? m.id = some (String.ofList (t.enclose payload)) := by
      rw [hshows'.text?_leaf (b := ⟨b.id, front ++ m :: back⟩) (by simp) (l := m) (by simp), hcut.content]
    have hahead : e.nextAfter? m.id = ahead? back below' := hshows'.nextAfter?_leaf
    rw [← hahead] at hwalk
    refine ⟨_, f, mid ++ ⟨b.id, front ++ m :: right'⟩ :: below'', .met hsearch htext hwalk, by simpa using hpage, ?_⟩
    have hblock : Paragraph.Swept t [b] [⟨b.id, front ++ m :: right'⟩] (Leaf.marks t (front ++ m :: right')) := by
      refine ⟨?_, ?_, by simp [Paragraph.marks]⟩
      · rw [List.map_singleton, List.map_singleton, Paragraph.line, Paragraph.line, hcut.piecesOf ht hpieces]
      · intro x hx
        obtain rfl := List.mem_singleton.1 hx
        exact hcut.swept ht hswept
    have hall := (Paragraph.swept_uncut hmid).append (hblock.append hrest)
    rw [hcut.marks ht] at hall
    exact hall

theorem walksWithin (ht : t.Proper) : ∀ (n : ℕ) (d : Document) (above : List Paragraph) (bid : NodeId) (left right : List Leaf)
    (below : List Paragraph), d.Shows (above ++ ⟨bid, left ++ right⟩ :: below) →
    Piece.markers (Leaf.piecesOf t right) + Piece.markersIn (below.map (Paragraph.line t)) < n →
    WalksWithin t d above bid left right below := by
  intro n
  induction n with
  | zero =>
    intro d above bid left right below h hlt
    omega
  | succ n ih =>
    intro d above bid left right below h hlt
    cases hstart : ahead? right below with
    | none =>
      obtain ⟨rfl, rfl⟩ : right = [] ∧ below = [] := by
        cases right <;> cases below <;> simp [ahead?] at hstart ⊢
      exact ⟨[], [], d, [], [], hstart ▸ .ended, h, rfl, rfl, rfl, rfl, by simp, rfl⟩
    | some id =>
      obtain ⟨e, split?, result, hsearch, hfound, hgrows⟩ := h.search_within (t := t) hstart
      cases hfound with
      | @here payload front back m hshows hcut =>
        have hshows' : e.Shows (above ++ ⟨bid, (left ++ front) ++ m :: back⟩ :: below) := by simpa using hshows
        have hcount := hcut.markers ht
        obtain ⟨ms, ms', f, right', below', hwalk, hpage, hpieces, hswept, rfl, hrest⟩ :=
          ih e above bid (left ++ front ++ [m]) back below (by simpa using hshows) (by omega)
        have htext : e.text? m.id = some (String.ofList (t.enclose payload)) := by
          rw [hshows'.text?_leaf (b := ⟨bid, (left ++ front) ++ m :: back⟩) (by simp) (l := m) (by simp), hcut.content]
        have hahead : e.nextAfter? m.id = ahead? back below := hshows'.nextAfter?_leaf
        rw [← hahead] at hwalk
        refine ⟨_, ms', f, front ++ m :: right', below', ?_, by simpa using hpage, hcut.piecesOf ht hpieces,
          hcut.swept ht hswept, rfl, hrest⟩
        rw [hstart, hcut.marks ht]
        exact .met hsearch htext hwalk
      | further hright hbelow =>
        have hshows : d.Shows ((above ++ [⟨bid, left ++ right⟩]) ++ below) := by simpa using h
        have hnext : ∀ above' bid left right below', e.Shows (above' ++ ⟨bid, left ++ right⟩ :: below') →
            Piece.markers (Leaf.piecesOf t right) + Piece.markersIn (below'.map (Paragraph.line t)) <
              Piece.markersIn (below.map (Paragraph.line t)) → WalksWithin t e above' bid left right below' := by
          intro above' bid left right below' hshows' hlt'
          exact ih _ _ _ _ _ _ hshows' (by omega)
        obtain ⟨ms, f, below', hwalk, hpage, hrest⟩ := walks_below ht hshows hsearch hbelow hnext
        refine ⟨[], ms, f, right, below', hstart ▸ hwalk, by simpa using hpage, rfl, Leaf.swept_uncut hright,
          (Leaf.marks_uncut hright).symm, hrest⟩

theorem walks_root {page : List Paragraph} (ht : t.Proper) (h : d.Shows page) :
    ∃ ms e page', Walk t d (some d.root) ms e ∧ e.Shows page' ∧ Paragraph.Swept t page page' ms := by
  obtain ⟨e, split?, result, hsearch, hfound, -⟩ := h.search_root (t := t)
  have hshows : d.Shows ([] ++ page) := h
  apply walks_below ht hshows hsearch hfound
  intro above bid left right below hshows' _
  exact walksWithin ht _ _ _ _ _ _ _ hshows' (Nat.lt_succ_self _)

end Document

/-! ### Listings -/

/-- The markers of payloads, line by line, with the numbers of the lines. -/
def Delimiters.listing (t : Delimiters) : ℕ → List (List (List Char)) → List (Option ℕ × String)
  | _, [] => []
  | n, ps :: lines => ps.map (fun p ↦ (some n, String.ofList (t.enclose p))) ++ listing t (n + 1) lines

theorem Paragraph.listing_marks : ∀ (below above : List Paragraph), e.Shows (above ++ below) →
    (∀ b ∈ below, Leaf.Swept t b.leaves) →
    (Paragraph.marks t below).map (fun m ↦ (e.line? m.1, m.2)) =
      t.listing (above.length + 1) ((below.map (Paragraph.line t)).map Piece.payloads) := by
  intro below
  induction below with
  | nil => exact fun _ _ _ ↦ rfl
  | cons b below ih =>
    intro above h hswept
    have hrest := ih (above ++ [b]) (by simpa using h) fun x hx ↦ hswept x (List.mem_cons_of_mem _ hx)
    have hline : (Leaf.marks t b.leaves).map (fun m ↦ (e.line? m.1, m.2)) =
        ((Leaf.marks t b.leaves).map Prod.snd).map fun s ↦ (some (above.length + 1), s) := by
      rw [List.map_map]
      apply List.map_congr_left
      intro x hx
      obtain ⟨l, hl, hx⟩ := List.mem_filterMap.1 hx
      rw [(Leaf.text?_of_mark? h hl hx).1, h.line?_leaf hl]
      rfl
    have hb := hswept b (List.mem_cons_self ..)
    rw [Leaf.Swept] at hb
    rw [Paragraph.marks, List.flatMap_cons, List.map_append, hline, hb, List.map_map]
    rw [List.length_append, List.length_singleton] at hrest
    rw [List.map_cons, List.map_cons, Delimiters.listing, ← hrest]
    rfl

namespace Site

variable {d : Delimiters}

theorem listing_ofLines (hd : d.Proper) : ∀ (lines : List (List Char)) (number start : ℕ),
    (ofLines d number start lines).map (fun s ↦ (some s.line, s.marker)) = d.listing number (lines.map d.payloads) := by
  intro lines
  induction lines with
  | nil => exact fun _ _ ↦ rfl
  | cons line lines ih =>
    intro number start
    rw [ofLines, List.map_append, ih, List.map_cons, Delimiters.listing, ← Delimiters.markers_payload hd, ofLine,
      List.map_map, List.map_map]
    rfl

/-- The sites of a template are what a walk from the root of its document meets: the same markers in the same lines, in
the same order. The walk leaves the text as it was, and the sites of a line are the leftmost markers in it. -/
theorem walk_ofText (hd : d.Inline) (serial : ℕ) (source : String) :
    ∃ ms e, Document.Walk d (.ofText serial source) (some (Document.ofText serial source).root) ms e ∧
      ms.map (fun m ↦ (e.line? m.1, m.2)) = (ofTemplate d source).map (fun s ↦ (some s.line, s.marker)) ∧
      (∀ m ∈ ms, e.text? m.1 = some m.2 ∧ d.isMarker m.2.toList = true) ∧
      e.toText = (Document.ofText serial source).toText ∧
      ∀ k line, (Text.linesInclusive source.toList)[k]? = some line →
        (ofTemplate d source).filter (fun s ↦ s.line = k + 1) =
          ofLine d (k + 1) (Text.width ((Text.linesInclusive source.toList).take k).flatten) line ∧
        d.Leftmost 0 line (d.markers line) := by
  obtain ⟨page, hshows, hcontents⟩ := Document.shows_ofText serial source
  obtain ⟨ms, e, page', hwalk, hshows', hswept⟩ := Document.walks_root hd.toProper hshows
  refine ⟨ms, e, hwalk, ?_, ?_, ?_, ?_⟩
  · have hlines : (page.map (Paragraph.line d)).map Piece.payloads = (Text.linesInclusive source.toList).map d.payloads := by
      rw [Document.lines_ofText hcontents, Text.lines, List.map_map, List.map_map]
      apply List.map_congr_left
      intro line _
      exact Delimiters.payloads_chomp hd line
    rw [hswept.marks, Paragraph.listing_marks page' [] hshows' hswept.swept, hswept.lines, hlines, ofTemplate,
      listing_ofLines hd.toProper]
    rfl
  · intro m hm
    rw [hswept.marks] at hm
    obtain ⟨b, hb, hmark⟩ := List.mem_flatMap.1 hm
    obtain ⟨l, hl, hlm⟩ := List.mem_filterMap.1 hmark
    obtain ⟨above, below, rfl⟩ := List.append_of_mem hb
    exact (Leaf.text?_of_mark? hshows' hl hlm).2
  · rw [Document.toText, Document.toText, hshows.textLines, hshows'.textLines, ← Paragraph.lines_text (t := d) page',
      hswept.lines, Paragraph.lines_text]
  · intro k line hline
    have hfilter := filter_ofLines (d := d) _ 1 0 hline
    rw [Nat.add_comm 1 k, Nat.zero_add] at hfilter
    exact ⟨hfilter, Delimiters.leftmost_markers hd.toProper line⟩

theorem walk_ofText_twoLines : Delimiters.default.Inline ∧
    ∃ ms e, Document.Walk .default (.ofText 0 "a$\x7bx\x7d\x7b$\x7b'\x7d\r\n$\x7bb\x7d$\x7bc;\x7d\n")
      (some (Document.ofText 0 "a$\x7bx\x7d\x7b$\x7b'\x7d\r\n$\x7bb\x7d$\x7bc;\x7d\n").root) ms e ∧
        ms.map (fun m ↦ (e.line? m.1, m.2)) = [(some 1, "$\x7bx\x7d"), (some 2, "$\x7bb\x7d"), (some 2, "$\x7bc;\x7d")] ∧
        e.toText = "a$\x7bx\x7d\x7b$\x7b'\x7d\n$\x7bb\x7d$\x7bc;\x7d" := by
  obtain ⟨ms, e, hwalk, hsites, -, htext, -⟩ :=
    walk_ofText Delimiters.inline_default 0 "a$\x7bx\x7d\x7b$\x7b'\x7d\r\n$\x7bb\x7d$\x7bc;\x7d\n"
  refine ⟨Delimiters.inline_default, ms, e, hwalk, hsites.trans ?_, htext.trans ?_⟩
  · decide +kernel
  · decide +kernel

/-- A marker that starts within an opening delimiter is neither listed nor met. Without a closing delimiter, the end
of a line closes a marker in the template, and there is no such end in the document. -/
theorem walk_ofText_unclosed :
    ((⟨"\x7b\x7b", "\x7d\x7d"⟩ : Delimiters).Inline ∧ ofTemplate ⟨"\x7b\x7b", "\x7d\x7d"⟩ "\x7b\x7b\x7bx\x7d\x7d" = [] ∧
      "\x7b\x7b\x7bx\x7d\x7d".toList = ['\x7b'] ++ "\x7b\x7bx\x7d\x7d".toList ∧
      (⟨"\x7b\x7b", "\x7d\x7d"⟩ : Delimiters).isMarker "\x7b\x7bx\x7d\x7d".toList = true) ∧
    (ofTemplate ⟨"$", ""⟩ "a$\n").map (fun s ↦ (s.line, s.marker)) = [(1, "$")] ∧
      ∃ e, Document.Walk ⟨"$", ""⟩ (.ofText 0 "a$\n") (some (Document.ofText 0 "a$\n").root) [] e := by
  refine ⟨⟨⟨⟨by decide, by decide⟩, by simp, by simp⟩, by decide +kernel, by decide, by decide +kernel⟩, by decide +kernel, ?_⟩
  exact ⟨_, .nothing rfl⟩

end Site

end Stencil
