import Stencil.Proofs.Run.Area
import Stencil.Proofs.Run.Plain
/-!
Galleys: where a scan has come to in a page, and slots: a marker that it has met there. A galley is
read as a sheet, and a slot as a gap in one.
-/

namespace Stencil

open Document (ahead?)

/-! ### Visible delimiters -/

/-- Delimiters whose markers are not taken for blanks. -/
structure Delimiters.Visible (t : Delimiters) : Prop extends t.Proper where
  visible : Text.allBlank t.opening.toList = false

theorem Delimiters.visible_default : Delimiters.default.Visible := ⟨proper_default, by decide⟩

section Reading

variable {t : Delimiters}

theorem Piece.isBlank_words (s : List Char) : (Piece.words s).isBlank t = Text.allBlank s := by
  rw [isBlank, content, Content.isBlank, String.toList_ofList]

theorem Piece.isBlank_marker (ht : t.Visible) (p : List Char) : (Piece.marker p).isBlank t = false := by
  rw [isBlank, content, Content.isBlank, String.toList_ofList, Delimiters.enclose, Text.allBlank, List.all_append,
    List.all_append]
  have := ht.visible
  rw [Text.allBlank] at this
  rw [this]
  rfl

theorem Content.isBlank_eq (ht : t.Visible) (c : Content) : c.isBlank = (c.pieces t).all (Piece.isBlank t) := by
  cases c with
  | image => rfl
  | text s =>
    change Text.allBlank s.toList = (t.pieces s.toList).all (Piece.isBlank t)
    cases hcut : t.cut? s.toList with
    | none =>
      rw [Delimiters.pieces_words hcut]
      simp [Piece.isBlank_words]
    | some c =>
      have hmarker := Piece.isBlank_marker ht c.payload
      rw [Delimiters.pieces_cut ht.toProper hcut, List.all_append, List.all_cons, hmarker, Bool.false_and,
        Bool.and_false, Delimiters.cut?_eq_append hcut]
      rw [Piece.isBlank, Piece.content, Content.isBlank, String.toList_ofList, Text.allBlank] at hmarker
      rw [Text.allBlank, List.all_append, List.all_append, hmarker, Bool.and_false, Bool.false_and]

theorem Leaf.all_isBlank (ht : t.Visible) (ls : List Leaf) :
    (ls.all fun l ↦ l.content.isBlank) = (piecesOf t ls).all (Piece.isBlank t) := by
  induction ls with
  | nil => rfl
  | cons l ls ih => rw [List.all_cons, ih, piecesOf_cons, List.all_append, Content.isBlank_eq ht]

theorem Content.line_append (cs ds : List Content) : line (cs ++ ds) = line cs ++ line ds := by
  rw [line, List.map_append, String.join_append, line, line]

theorem Piece.line_append (a b : Line) : line t (a ++ b) = line t a ++ line t b := by
  rw [line, List.map_append, Content.line_append, line, line]

theorem Piece.line_single (q : Piece) : line t [q] = (q.content t).shown := by
  simp [line, Content.line, String.join]

theorem Delimiters.line_piecesWithin : ∀ (n : ℕ) (s : List Char),
    Piece.line t (t.piecesWithin n s) = String.ofList s := by
  have hwords : ∀ u : List Char, Piece.line t (wordsOf u) = String.ofList u := fun u ↦ by
    rw [wordsOf]
    cases u with
    | nil => rfl
    | cons c u => exact Piece.line_single _
  intro n
  induction n with
  | zero => exact fun s ↦ Piece.line_single _
  | succ n ih =>
    intro s
    rw [piecesWithin]
    cases hcut : t.cut? s with
    | none => exact Piece.line_single _
    | some c =>
      have hrest : Piece.line t (if c.after.isEmpty then [] else t.piecesWithin n c.after) = String.ofList c.after := by
        split
        · next h => simp [List.isEmpty_iff.1 h, Piece.line, Content.line, String.join]
        · exact ih c.after
      have hcons : ∀ qs, Piece.line t (.marker c.payload :: qs) =
          String.ofList (t.enclose c.payload) ++ Piece.line t qs := fun qs ↦ by
        rw [← List.singleton_append, Piece.line_append, Piece.line_single]
        rfl
      dsimp only
      rw [Piece.line_append, hwords, hcons, hrest, ← String.ofList_append, ← String.ofList_append]
      conv_rhs => rw [cut?_eq_append hcut]
      rw [List.append_assoc]

theorem Leaf.line_piecesOf (ls : List Leaf) : Piece.line t (piecesOf t ls) = Content.line (ls.map content) := by
  induction ls with
  | nil => rfl
  | cons l ls ih =>
    have hleaf : Piece.line t (l.content.pieces t) = l.content.shown := by
      cases l.content with
      | text s => exact (Delimiters.line_piecesWithin _ _).trans String.ofList_toList
      | image => exact Piece.line_single _
    have hline : Content.line ((l :: ls).map content) = l.content.shown ++ Content.line (ls.map content) := by
      rw [Content.line, List.map_cons, List.map_cons, String.join_cons, Content.line]
    rw [piecesOf_cons, Piece.line_append, hleaf, ih, hline]

end Reading

/-! ### Galleys and slots -/

def Paragraph.text (b : Paragraph) : String := Content.line (b.leaves.map Leaf.content)

def Paragraph.order (page : List Paragraph) : List NodeId := page.flatMap ids

/-- Where a scan has come to in a page: within a block, between two, or at its end. -/
inductive Galley where
  | within (above : List Paragraph) (bid : NodeId) (left right : List Leaf) (below : List Paragraph)
  | between (above below : List Paragraph)
  | halted (page : List Paragraph)

/-- A marker that the scan has met, with what is around it. -/
structure Slot where
  above : List Paragraph
  bid : NodeId
  left : List Leaf
  mark : Leaf
  right : List Leaf
  below : List Paragraph

namespace Galley

def page : Galley → List Paragraph
  | within above bid left right below => above ++ ⟨bid, left ++ right⟩ :: below
  | between above below => above ++ below
  | halted page => page

def next? : Galley → Option NodeId
  | within _ _ _ right below => ahead? right below
  | between _ below => (below.map Paragraph.id).head?
  | halted _ => none

def ahead : Galley → List NodeId
  | within _ _ _ right below => right.map Leaf.id ++ Paragraph.order below
  | between _ below => Paragraph.order below
  | halted _ => []

def behind : Galley → List Leaf
  | within above _ left _ _ => above.flatMap Paragraph.leaves ++ left
  | between above _ => above.flatMap Paragraph.leaves
  | halted page => page.flatMap Paragraph.leaves

def sheet (t : Delimiters) : Galley → Sheet
  | within above _ left right below =>
    .within (above.map Paragraph.text) (left.map Leaf.content) (Leaf.piecesOf t right) (below.map (Paragraph.line t))
  | between above below => .between (above.map Paragraph.text) (below.map (Paragraph.line t))
  | halted page => .halted (page.map Paragraph.text)

end Galley

namespace Slot

variable (s : Slot) (t : Delimiters)

def page : List Paragraph := s.above ++ ⟨s.bid, s.left ++ s.mark :: s.right⟩ :: s.below

def ahead : List NodeId := s.right.map Leaf.id ++ Paragraph.order s.below

def behind : List Leaf := s.above.flatMap Paragraph.leaves ++ s.left

def gap (payload : List Char) : Gap :=
  ⟨s.above.map Paragraph.text, s.left.map Leaf.content, payload, Leaf.piecesOf t s.right, s.below.map (Paragraph.line t)⟩

def passed (l : Leaf) : Galley := .within s.above s.bid (s.left ++ [l]) s.right s.below

/-- The marker goes, with its block when nothing but blanks would be left in it. -/
def removed : Galley :=
  if (s.left ++ s.right).all (fun l ↦ l.content.isBlank) then .between s.above s.below
  else .within s.above s.bid s.left s.right s.below

end Slot

section Sheets

variable {t : Delimiters}

theorem Paragraph.line_text (b : Paragraph) : Piece.line t (b.line t) = b.text := Leaf.line_piecesOf b.leaves

theorem Paragraph.lines_text (bs : List Paragraph) : (bs.map (Paragraph.line t)).map (Piece.line t) = bs.map Paragraph.text := by
  rw [List.map_map]
  exact List.map_congr_left fun b _ ↦ b.line_text

theorem Galley.lines_sheet (G : Galley) : (G.sheet t).lines t = G.page.map Paragraph.text := by
  cases G with
  | within above bid left right below =>
    have hline : Content.line (left.map Leaf.content ++ (Leaf.piecesOf t right).map (Piece.content t)) =
        Paragraph.text ⟨bid, left ++ right⟩ := by
      rw [Content.line_append, ← Piece.line, Leaf.line_piecesOf, ← Content.line_append, Paragraph.text, List.map_append]
    rw [sheet, Sheet.lines, hline, Paragraph.lines_text, page, List.map_append, List.map_cons]
  | between above below => rw [sheet, Sheet.lines, Paragraph.lines_text, page, List.map_append]
  | halted page => rfl

theorem Slot.sheet_removed (ht : t.Visible) (s : Slot) (payload : List Char) :
    s.removed.sheet t = (s.gap t payload).removed t := by
  have hblank : ((s.left ++ s.right).all fun l ↦ l.content.isBlank) =
      ((s.left.map Leaf.content).all Content.isBlank && (Leaf.piecesOf t s.right).all (Piece.isBlank t)) := by
    rw [List.all_append, Leaf.all_isBlank ht s.right, List.all_map]
    rfl
  rw [removed, Gap.removed, gap]
  dsimp only
  rw [hblank]
  cases ((s.left.map Leaf.content).all Content.isBlank && (Leaf.piecesOf t s.right).all (Piece.isBlank t)) <;> rfl

theorem Slot.sheet_passed (s : Slot) (payload : List Char) (l : Leaf) :
    (s.passed l).sheet t = (s.gap t payload).passed l.content := by
  rw [passed, Galley.sheet, Gap.passed, gap, List.map_append]
  rfl

end Sheets

/-! ### Where a scan goes on -/

section Resumption

variable {d : Document} {p : Placeholder} {s : Slot}

theorem Galley.mem_of_next? {G : Galley} {n : NodeId} (h : G.next? = some n) :
    n ∈ G.ahead ∧ n ∈ Paragraph.order G.page := by
  have hhead : ∀ {bs : List Paragraph}, (bs.map Paragraph.id).head? = some n → n ∈ Paragraph.order bs := fun {bs} hn ↦ by
    cases bs with
    | nil => simp at hn
    | cons b bs =>
      obtain rfl : b.id = n := by simpa using hn
      exact List.mem_append_left _ (List.mem_cons_self ..)
  cases G with
  | within above bid left right below =>
    have hmem : n ∈ right.map Leaf.id ++ Paragraph.order below := by
      cases right with
      | nil => exact hhead (by simpa [next?, ahead?] using h)
      | cons l right =>
        obtain rfl : l.id = n := by simpa [next?, ahead?] using h
        exact List.mem_append_left _ (List.mem_cons_self ..)
    refine ⟨hmem, ?_⟩
    rw [Paragraph.order, page, List.flatMap_append, List.flatMap_cons, Paragraph.ids, List.map_append]
    rcases List.mem_append.1 hmem with hmem | hmem
    · simp [hmem]
    · exact List.mem_append_right _ (List.mem_append_right _ hmem)
  | between above below =>
    have hmem := hhead h
    refine ⟨hmem, ?_⟩
    rw [Paragraph.order, page, List.flatMap_append]
    exact List.mem_append_right _ hmem
  | halted page => simp [next?] at h

theorem Galley.resumption {G : Galley} (h : d.Shows G.page) :
    Scanner.resumption d p (.toward G.next?) = G.next? := by
  cases hnext : G.next? with
  | none => rfl
  | some n =>
    have hattached : d.isAttached n = true :=
      h.isAttached_iff.2 (List.mem_cons_of_mem _ (Galley.mem_of_next? hnext).2)
    exact if_pos hattached

theorem Slot.resumption_proceed (h : d.Shows s.page) (hp : p.node = s.mark.id) :
    Scanner.resumption d p .proceed = ahead? s.right s.below := by
  have hattached : d.isAttached s.mark.id = true :=
    h.isAttached_leaf (b := ⟨s.bid, s.left ++ s.mark :: s.right⟩) (by simp [page]) (by simp)
  rw [Scanner.resumption, hp, if_pos hattached]
  exact h.nextAfter?_leaf

end Resumption

/-! ### What comes of a command -/

/-- A slot at a later time: text ahead of it may have been cut, and nothing else was changed. -/
structure Slot.Stands (t : Delimiters) (s s' : Slot) (r r' : RunState) : Prop where
  leads : r.Leads r'
  page : r'.document.Shows s'.page
  above : s'.above = s.above
  bid : s'.bid = s.bid
  left : s'.left = s.left
  mark : s'.mark = s.mark
  right : Recut t r.document s.right s'.right
  below : RecutAll t r.document s.below s'.below

structure Slot.Meets (s : Slot) (p : Placeholder) : Prop where
  node : p.node = s.mark.id
  successor : p.successor? = ahead? s.right s.below

structure Slot.Hosts (t : Delimiters) (s : Slot) (c : Selection) (payload : List Char) : Prop where
  node : c.node = s.mark.id
  toolkit : c.toolkit? = some (.ofDelimiters t)
  content : s.mark.content = .text (String.ofList (t.enclose payload))

/-- A galley that the scan may go on in. What is ahead of it there was ahead of the slot or is new, but
for the nodes that the scan comes back to as far as they stay, and what lies behind it has stayed as it was. -/
structure Slot.Onward (s : Slot) (d : Document) (again : List NodeId) (G : Galley) : Prop where
  ahead : ∀ id ∈ G.ahead, id ∈ again ∨ id ∈ s.ahead ∨ d.node? id = none
  back : ∀ id ∈ again, id ∈ Paragraph.order G.page → id ∈ G.ahead
  behind : ∀ l ∈ G.behind, l ∈ s.behind ∨ l.id = s.mark.id ∨ l.id ∈ s.ahead ∨ d.node? l.id = none

/-- What comes of a command at a slot, and what that is on a sheet. A merge in front of the slot's block is
come back to. Only the last case has no counterpart on sheets: an edit elsewhere in the page. -/
inductive Slot.Comes (t : Delimiters) (s : Slot) (p : Placeholder) (r r' : RunState) :
    Except RunError Outcome → Option (Except RunError Upshot) → Prop where
  | failed {s' : Slot} {e : RunError} : s.Stands t s' r r' → s.Comes t p r r' (.error e) (some (.error e))
  | ignored {s' : Slot} : s.Stands t s' r r' → s.Comes t p r r' (.ok .ignored) (some (.ok .ignored))
  | consumed : r.Idles r' → s.Comes t p r r' (.ok .consumed) (some (.ok .consumed))
  | moved {G : Galley} {next : Continuation} : r.Leads r' → r'.document.Shows G.page →
      Scanner.resumption r'.document p next = G.next? → s.Onward r.document [] G →
      s.Comes t p r r' (.ok (.executed next)) (some (.ok (.moved (G.sheet t))))
  | merged {G : Galley} {next : Continuation} {n : ℕ} {new : List Event} : r.document.Grows r'.document → r'.report = r.report →
      r'.log = new ++ r.log → .imported (n + 1) ∈ new → r'.document.Shows G.page →
      Scanner.resumption r'.document p next = G.next? → s.Onward r.document (s.bid :: s.left.map Leaf.id) G →
      s.Comes t p r r' (.ok (.executed next)) (some (.ok (.moved (G.sheet t))))
  | strayed {G : Galley} {next : Continuation} : r.Leads r' → r'.document.Shows G.page →
      Scanner.resumption r'.document p next = G.next? → s.Onward r.document [] G →
      s.Comes t p r r' (.ok (.executed next)) none

namespace Slot

variable {t : Delimiters} {s s' s'' : Slot} {r r' r'' : RunState} {c : Selection} {payload : List Char}

theorem Stands.refl (h : r.document.Shows s.page) : s.Stands t s r r :=
  ⟨.refl r, h, rfl, rfl, rfl, rfl, .refl _ _ _, .refl _ _ _⟩

theorem Stands.gap (h : s.Stands t s' r r') (ht : t.Proper) : s'.gap t payload = s.gap t payload := by
  rw [Slot.gap, Slot.gap, h.above, h.left, h.right.pieces ht, h.below.lines ht]

theorem Stands.ahead (h : s.Stands t s' r r') : ∀ id ∈ s'.ahead, id ∈ s.ahead ∨ r.document.node? id = none := by
  intro id hid
  rcases List.mem_append.1 hid with hid | hid
  · exact (h.right.ids id hid).imp_left (List.mem_append_left _)
  · exact (h.below.ids id hid).imp_left (List.mem_append_right _)

theorem Stands.behind (h : s.Stands t s' r r') : s'.behind = s.behind := by rw [Slot.behind, Slot.behind, h.above, h.left]

end Slot

end Stencil
