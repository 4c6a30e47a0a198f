import Stencil.Proofs.Run.Closing
import Stencil.Proofs.Run.Galley
import Stencil.Proofs.Sheet.Scan
/-!
Commands with a block, at work in a page. What comes of each is told by the sheet.
-/

namespace Stencil

open Document (ahead?)

variable {t : Delimiters} {s : Slot} {r r₁ : RunState} {p : Placeholder} {c : Selection} {payload : List Char}
  {closing : NodeId} {reach : Reach}

/-! ### Lines of blocks -/

theorem Delimiters.pieces_ne_nil (s : List Char) : t.pieces s ≠ [] := by
  rw [pieces]
  cases s.length with
  | zero => simp [piecesWithin]
  | succ n =>
    rw [piecesWithin]
    cases t.cut? s <;> simp

theorem Leaf.piecesOf_isEmpty (ls : List Leaf) : (piecesOf t ls).isEmpty = ls.isEmpty := by
  cases ls with
  | nil => rfl
  | cons l ls =>
    have hne : l.content.pieces t ≠ [] := by
      cases l.content with
      | text s => exact Delimiters.pieces_ne_nil _
      | image => simp [Content.pieces]
    rw [piecesOf_cons]
    simp [hne]

theorem Leaf.piecesOf_eq (ls : List Leaf) : piecesOf t ls = (ls.map content).flatMap (Content.pieces t) := by
  rw [piecesOf, List.flatMap_map]

theorem Paragraph.lines_part (id : NodeId) (ls : List Leaf) :
    (Paragraph.part id ls).map (Paragraph.line t) = Sheet.part (Leaf.piecesOf t ls) := by
  rw [Paragraph.part, Sheet.part, Leaf.piecesOf_isEmpty]
  split <;> rfl

theorem Paragraph.text_part (id : NodeId) (ls : List Leaf) :
    (Paragraph.part id ls).map Paragraph.text = (Sheet.part (ls.map Leaf.content)).map Content.line := by
  rw [Paragraph.part, Sheet.part]
  cases ls <;> rfl

theorem Paragraph.lines_kept (ht : t.Visible) (id : NodeId) (ls : List Leaf) :
    (Paragraph.kept id ls).map (Paragraph.line t) = Piece.kept t (Leaf.piecesOf t ls) := by
  rw [Paragraph.kept, Piece.kept, ← Leaf.all_isBlank ht]
  split <;> rfl

theorem Paragraph.order_part (id : NodeId) (ls : List Leaf) : ∀ i ∈ Paragraph.order (Paragraph.part id ls),
    i = id ∨ i ∈ ls.map Leaf.id := by
  intro i hi
  rw [Paragraph.part] at hi
  split at hi
  · simp [order] at hi
  · simpa [order, Paragraph.ids] using hi

theorem Paragraph.order_kept (id : NodeId) (ls : List Leaf) : ∀ i ∈ Paragraph.order (Paragraph.kept id ls),
    i = id ∨ i ∈ ls.map Leaf.id := by
  intro i hi
  rw [Paragraph.kept] at hi
  split at hi
  · simp [order] at hi
  · simpa [order, Paragraph.ids] using hi

theorem Paragraph.order_append (bs cs : List Paragraph) : order (bs ++ cs) = order bs ++ order cs := List.flatMap_append

theorem Paragraph.order_cons (b : Paragraph) (bs : List Paragraph) : order (b :: bs) = b.ids ++ order bs := List.flatMap_cons

theorem Paragraph.leaves_part (id : NodeId) (ls : List Leaf) : (Paragraph.part id ls).flatMap Paragraph.leaves = ls := by
  rw [Paragraph.part]
  cases ls <;> simp

theorem Paragraph.leaves_kept (id : NodeId) (ls : List Leaf) : ∀ l ∈ (Paragraph.kept id ls).flatMap Paragraph.leaves, l ∈ ls := by
  rw [Paragraph.kept]
  split <;> simp

theorem Paragraph.mem_order_of_leaf {bs : List Paragraph} {l : Leaf} (h : l ∈ bs.flatMap Paragraph.leaves) :
    l.id ∈ order bs := by
  obtain ⟨b, hb, hl⟩ := List.mem_flatMap.1 h
  exact List.mem_flatMap.2 ⟨b, hb, List.mem_cons_of_mem _ (List.mem_map_of_mem hl)⟩

theorem Slot.Onward.intro {d : Document} {G : Galley} (hahead : ∀ id ∈ G.ahead, id ∈ s.ahead ∨ d.node? id = none)
    (hbehind : ∀ l ∈ G.behind, l ∈ s.behind ∨ l.id = s.mark.id ∨ l.id ∈ s.ahead ∨ d.node? l.id = none) :
    s.Onward d [] G := ⟨fun id hid ↦ .inr (hahead id hid), by simp, hbehind⟩

/-! ### Replication -/

theorem Slot.replicated_on {text : String} (payload : List Char) (hkeeps : r.Keeps r₁)
    (hsought : Sought t r.document r₁.document s.above s.bid (s.left ++ [s.mark]) s.right s.below (some closing)
      (some reach))
    (hcontent : s.mark.content = .text text) {toolkit : Run Toolkit}
    (htoolkit : ∀ r, toolkit.on r = (.ok (.ofDelimiters t), r)) (markers : List Area.CopyMarkers) :
    ∃ (G : Galley) (r' : RunState), (do
        let area ← Area.isolate s.mark.id closing
        area.replicate toolkit markers : Run (Option Continuation)).on r₁ = (.ok (some (.toward G.next?)), r') ∧
      r.Keeps r' ∧ r'.document.Shows G.page ∧ s.Onward r.document [] G ∧
      G.sheet t = (s.gap t payload).replicated (markers.map (·.lines t)) reach := by
  have hgrows := hkeeps.grows
  cases hsought with
  | @here mid rest c sc hshows hc hright hsettled =>
    obtain ⟨copies, r', hon, hkeeps', hshows', hnew, hcontents⟩ := Area.replicate_here htoolkit hcontent hc markers
      (show r₁.document.Shows (s.above ++ ⟨s.bid, s.left ++ s.mark :: (mid ++ c :: rest)⟩ :: s.below) by simpa using hshows)
    refine ⟨.within s.above s.bid s.left (copies ++ rest) s.below, r', hon, hkeeps.trans hkeeps', hshows',
      .intro ?_ fun l hl ↦ .inl hl, ?_⟩
    · intro id hid
      rw [Galley.ahead, List.map_append, List.append_assoc] at hid
      rcases List.mem_append.1 hid with hid | hid
      · exact .inr (hgrows.unknown (hnew id hid))
      · rcases List.mem_append.1 hid with hid | hid
        · exact (hright.ids id (by simp [List.mem_map.1 hid])).imp_left (List.mem_append_left _)
        · exact .inl (List.mem_append_right _ hid)
    · have hcopies : Leaf.piecesOf t copies = (markers.map (·.lines t)).flatMap fun m ↦
          m.1 ++ (Leaf.piecesOf t mid ++ m.2) := by
        rw [Leaf.piecesOf_eq, hcontents, List.flatMap_assoc, List.flatMap_map]
        refine List.flatMap_congr fun m _ ↦ ?_
        rw [List.flatMap_cons, List.flatMap_append, ← Leaf.piecesOf_eq, List.flatMap_singleton]
        simp only [Content.pieces, Area.CopyMarkers.lines, Toolkit.ofDelimiters]
      rw [Galley.sheet, Slot.gap, Gap.replicated, Leaf.piecesOf_append, hcopies]
  | @there first front rest mid below' bid' c sc hshows hc hright hbelow hfirst hmid hfront =>
    obtain ⟨copies, part, part', r', hon, hkeeps', hshows', hpart', hnew, hcontents⟩ := Area.replicate_there
      htoolkit hcontent hc markers (show r₁.document.Shows (s.above ++ ⟨s.bid, s.left ++ s.mark :: first⟩ ::
        (mid ++ ⟨bid', front ++ c :: rest⟩ :: below')) by simpa using hshows)
    refine ⟨.between (s.above ++ Paragraph.part part s.left) (copies ++ (Paragraph.part part' rest ++ below')), r', hon,
      hkeeps.trans hkeeps', hshows', .intro ?_ fun l hl ↦ .inl ?_, ?_⟩
    · have hids := hbelow.ids
      intro id hid
      rw [Galley.ahead, Paragraph.order_append, Paragraph.order_append] at hid
      rcases List.mem_append.1 hid with hid | hid
      · exact .inr (hgrows.unknown (hnew id hid))
      rcases List.mem_append.1 hid with hid | hid
      · rcases Paragraph.order_part _ _ id hid with rfl | hid
        · exact .inr (hgrows.unknown hpart')
        · exact (hids id (by simp [Paragraph.ids, List.mem_map.1 hid])).imp_left (List.mem_append_right _)
      · exact (hids id (by simp [List.mem_flatMap.1 hid])).imp_left (List.mem_append_right _)
    · rwa [Galley.behind, List.flatMap_append, Paragraph.leaves_part] at hl
    · have hcopies : copies.map (Paragraph.line t) = (markers.map (·.lines t)).flatMap fun m ↦
          (m.1 ++ Leaf.piecesOf t first) :: (mid.map (Paragraph.line t) ++ [Leaf.piecesOf t front ++ m.2]) := by
        have hline : ∀ bs : List Paragraph, bs.map (Paragraph.line t) =
            (bs.map fun b ↦ b.leaves.map Leaf.content).map fun cs ↦ cs.flatMap (Content.pieces t) := fun bs ↦ by
          rw [List.map_map]
          exact List.map_congr_left fun b _ ↦ Leaf.piecesOf_eq b.leaves
        rw [hline copies, hcontents, List.map_flatMap, List.flatMap_map]
        refine List.flatMap_congr fun m _ ↦ ?_
        rw [List.map_cons, List.map_append, ← hline, List.map_singleton, List.flatMap_cons, List.flatMap_append,
          ← Leaf.piecesOf_eq, ← Leaf.piecesOf_eq, List.flatMap_singleton]
        simp only [Content.pieces, Area.CopyMarkers.lines, Toolkit.ofDelimiters]
      rw [Galley.sheet, Slot.gap, Gap.replicated, List.map_append, List.map_append, List.map_append, Paragraph.text_part,
        Paragraph.lines_part, hcopies]

/-! ### Removal -/

namespace Slot

theorem page_removed (s : Slot) : s.removed.page = s.above ++ Paragraph.kept s.bid (s.left ++ s.right) ++ s.below := by
  rw [removed, Paragraph.kept]
  split <;> simp [Galley.page]

theorem ahead_removed (s : Slot) : ∀ id ∈ s.removed.ahead, id ∈ s.ahead := by
  intro id hid
  rw [removed] at hid
  split at hid
  · exact List.mem_append_right _ hid
  · exact hid

theorem behind_removed (s : Slot) : ∀ l ∈ s.removed.behind, l ∈ s.behind := by
  intro l hl
  rw [removed] at hl
  split at hl
  · exact List.mem_append_left _ hl
  · exact hl

/-- The placeholder goes, and the scan goes on behind what is removed. -/
theorem removed_on (h : r.document.Shows s.page) :
    ∃ r', (Selection.removePlaceholder s.mark.id).on r = (.ok (.toward s.removed.next?), r') ∧ r.Keeps r' ∧
      r'.document.Shows s.removed.page ∧
      ((s.left ++ s.right).all (fun l ↦ l.content.isBlank) = true →
        r'.document.HasBlock none ⟨s.bid, s.left ++ s.mark :: s.right⟩) := by
  obtain ⟨e, he, hshows, hgrows, hblock⟩ := h.deletePlaceholder
  have hnext : Continuation.ofNode r.document (some (r.document.removalRoot s.mark.id)) true =
      .toward s.removed.next? := by
    rw [Continuation.ofNode_behind, h.removalRoot_leaf, removed]
    split
    · exact congrArg _ h.nextAfter?_block
    · exact congrArg _ h.nextAfter?_leaf
  refine ⟨{ r with document := e }, ?_, RunState.keeps_document hgrows, by rw [page_removed]; exact hshows, hblock⟩
  rw [Selection.removePlaceholder, Run.on_bind_ok (Run.on_document r), Run.on_bind_ok (Run.on_edit he), hnext,
    Run.on_pure]

/-- Going on at a node that was lost with the slot's block: at what followed that block, if the block
ended in the marker, else nowhere. -/
theorem resumption_lost (h : r.document.Shows s.page) (hp : s.Meets p) {d : Document} (hgrows : r.document.Grows d)
    (hd : d.Shows (s.above ++ s.below)) {n? : Option NodeId} (hn : ∀ n, n? = some n → d.isAttached n = false) :
    ∃ G : Galley, G.page = s.above ++ s.below ∧ Scanner.resumption d p (.toward n?) = G.next? ∧
      s.Onward r.document [] G ∧ (s.right ≠ [] → G = .halted (s.above ++ s.below)) := by
  have hhalted : s.Onward r.document [] (.halted (s.above ++ s.below)) := by
    refine .intro (by simp [Galley.ahead]) fun l hl ↦ ?_
    rw [Galley.behind, List.flatMap_append] at hl
    rcases List.mem_append.1 hl with hl | hl
    · exact .inl (List.mem_append_left _ hl)
    · exact .inr (.inr (.inl (List.mem_append_right _ (Paragraph.mem_order_of_leaf hl))))
  cases n? with
  | none => exact ⟨.halted (s.above ++ s.below), rfl, rfl, hhalted, fun _ ↦ rfl⟩
  | some n =>
    have hlost : Scanner.resumption d p (.toward (some n)) = (ahead? s.right s.below).filter d.isAttached := by
      have hn' : d.isAttached n = false := hn n rfl
      rw [Continuation.toward, Scanner.resumption, if_neg (by simp [hn']), hp.successor]
    cases hright : s.right with
    | nil =>
      refine ⟨.between s.above s.below, rfl, ?_, .intro (fun id hid ↦ .inl (List.mem_append_right _ hid))
        fun l hl ↦ .inl (List.mem_append_left _ hl), fun hne ↦ absurd rfl hne⟩
      have hahead : ahead? [] s.below = (Galley.between s.above s.below).next? := by simp [ahead?, Galley.next?]
      rw [hlost, hright, hahead]
      cases hnext : (Galley.between s.above s.below).next? with
      | none => rfl
      | some m =>
        have hm : d.isAttached m = true :=
          hd.isAttached_iff.2 (List.mem_cons_of_mem _ (Galley.mem_of_next? hnext).2)
        simp [Option.filter, hm]
    | cons x right =>
      refine ⟨.halted (s.above ++ s.below), rfl, ?_, hhalted, fun _ ↦ rfl⟩
      have hx : d.isAttached x.id = false :=
        h.isAttached_cut hd hgrows (by simp [Paragraph.ids, hright])
      rw [hlost, hright]
      simp [ahead?, Option.filter, hx, Galley.next?]

/-- What an edit of a slot's page comes to that moves the scan on. -/
structure Reaches (t : Delimiters) (s : Slot) (p : Placeholder) (r r' : RunState) (next : Continuation) (G : Galley) :
    Prop where
  keeps : r.Keeps r'
  page : r'.document.Shows G.page
  next : Scanner.resumption r'.document p next = G.next?
  onward : s.Onward r.document [] G

theorem Reaches.comes {next : Continuation} {G : Galley} {r' : RunState} (h : s.Reaches t p r r' next G) :
    s.Comes t p r r' (.ok (.executed next)) (some (.ok (.moved (G.sheet t)))) :=
  .moved h.keeps.toLeads h.page h.next h.onward

theorem mark_visible (ht : t.Visible) (hcontent : s.mark.content = .text (String.ofList (t.enclose payload))) :
    s.mark.content.isBlank = false := by
  rw [hcontent]
  exact Piece.isBlank_marker ht payload

theorem opened_on (h : r.document.Shows s.page) (hkeeps : r.Keeps r₁) (hp : s.Meets p)
    (hsought : Sought t r.document r₁.document s.above s.bid (s.left ++ [s.mark]) s.right s.below (some closing)
      (some reach))
    (hcontent : s.mark.content = .text (String.ofList (t.enclose payload))) :
    ∃ (G : Galley) (next : Continuation) (r' : RunState), (do
        Run.edit fun d ↦ d.deletePlaceholder closing
        Selection.removePlaceholder s.mark.id : Run Continuation).on r₁ = (.ok next, r') ∧
      s.Reaches t p r r' next G ∧ (t.Visible → G.sheet t = (s.gap t payload).opened t reach) := by
  have hgrows := hkeeps.grows
  cases hsought with
  | @here mid rest c sc hshows hc hright hsettled =>
    have h₁ : r₁.document.Shows (s.above ++ ⟨s.bid, (s.left ++ s.mark :: mid) ++ c :: rest⟩ :: s.below) := by
      simpa using hshows
    obtain ⟨e, he, hshows₂, hgrows₂, hapart⟩ := h₁.deletePlaceholder
    have hedit : (Run.edit fun d ↦ d.deletePlaceholder c.id).on r₁ = (.ok (), { r₁ with document := e }) :=
      Run.on_edit he
    have hkeeps₂ : r.Keeps { r₁ with document := e } := hkeeps.trans (RunState.keeps_document hgrows₂)
    rw [Run.on_bind_ok hedit]
    by_cases hblank : ((s.left ++ s.mark :: mid) ++ rest).all (fun l ↦ l.content.isBlank) = true
    · -- The delimiters are blanks: the block went with the closing marker, the opening one in it.
      rw [Paragraph.kept, if_pos hblank, List.append_nil] at hshows₂
      have hshows₃ : e.Shows (s.above ++ s.below) := hshows₂
      have hblock := hapart hblank
      have hb : (⟨s.bid, (s.left ++ s.mark :: mid) ++ c :: rest⟩ : Paragraph) ∈
          s.above ++ ⟨s.bid, (s.left ++ s.mark :: mid) ++ c :: rest⟩ :: s.below := by simp
      have hroot : s.bid ≠ e.root := hgrows₂.root ▸ h₁.block_ne_root hb
      have hmark : s.mark ∈ (s.left ++ s.mark :: mid) ++ c :: rest := by simp
      obtain ⟨f, hf, hshows₄, hgrows₄⟩ := hshows₃.deletePlaceholder_apart hblock hroot (h₁.nodup_ids hb) hmark
      have hkeeps₄ : r.Keeps { r₁ with document := f } :=
        hkeeps₂.trans (RunState.keeps_document (r := { r₁ with document := e }) hgrows₄)
      have hlost : ∀ n, e.nextAfter? s.mark.id = some n → f.isAttached n = false := fun n hn ↦ by
        have hout := hshows₃.nextAfter?_apart hblock hroot hmark hn
        rw [← Bool.not_eq_true, hshows₃.isAttached_iff] at hout
        rwa [← Bool.not_eq_true, hshows₄.isAttached_iff, hgrows₄.root]
      obtain ⟨G, hpage, hnext, honward, _⟩ := resumption_lost h hp hkeeps₄.grows hshows₄ hlost
      refine ⟨G, .toward (e.nextAfter? s.mark.id), { r₁ with document := f }, ?_,
        ⟨hkeeps₄, by rw [hpage]; exact hshows₄, hnext, honward⟩, fun ht ↦ ?_⟩
      · have hremoval : e.removalRoot s.mark.id = s.mark.id := hshows₃.removalRoot_apart hblock hroot hmark
        have hedit₄ : (Run.edit fun d ↦ d.deletePlaceholder s.mark.id).on { r₁ with document := e } =
            (.ok (), { r₁ with document := f }) := Run.on_edit (r := { r₁ with document := e }) hf
        rw [Selection.removePlaceholder, Run.on_bind_ok (Run.on_document _), Run.on_bind_ok hedit₄, Run.on_pure]
        dsimp only
        rw [hremoval, Continuation.ofNode_behind]
      · have hvisible := mark_visible ht hcontent
        simp [hvisible] at hblank
    · let s₂ : Slot := ⟨s.above, s.bid, s.left, s.mark, mid ++ rest, s.below⟩
      rw [Paragraph.kept, if_neg hblank] at hshows₂
      have hshows₃ : e.Shows s₂.page := by simpa [page, s₂] using hshows₂
      obtain ⟨r', hon, hkeeps₃, hshows₄, _⟩ := s₂.removed_on (r := { r₁ with document := e }) hshows₃
      refine ⟨s₂.removed, .toward s₂.removed.next?, r', hon,
        ⟨hkeeps₂.trans hkeeps₃, hshows₄, Galley.resumption hshows₄,
          .intro (fun id hid ↦ ?_) fun l hl ↦ .inl (s₂.behind_removed l hl)⟩, fun ht ↦ ?_⟩
      · have hin : id ∈ (mid ++ rest).map Leaf.id ++ Paragraph.order s.below := s₂.ahead_removed id hid
        rcases List.mem_append.1 hin with hin | hin
        · refine (hright.ids id ?_).imp_left (List.mem_append_left _)
          simp only [List.map_append, List.map_cons, List.mem_append, List.mem_cons] at hin ⊢
          tauto
        · exact .inl (List.mem_append_right _ hin)
      · rw [sheet_removed ht s₂ payload, Gap.opened, gap, gap, Leaf.piecesOf_append]
  | @there first front rest mid below' bid' c sc hshows hc hright hbelow hfirst hmid hfront =>
    have h₁ : r₁.document.Shows ((s.above ++ ⟨s.bid, s.left ++ s.mark :: first⟩ :: mid) ++
        ⟨bid', front ++ c :: rest⟩ :: below') := by simpa using hshows
    obtain ⟨e, he, hshows₂, hgrows₂, _⟩ := h₁.deletePlaceholder
    have hedit : (Run.edit fun d ↦ d.deletePlaceholder c.id).on r₁ = (.ok (), { r₁ with document := e }) :=
      Run.on_edit he
    have hkeeps₂ : r.Keeps { r₁ with document := e } := hkeeps.trans (RunState.keeps_document hgrows₂)
    let s₂ : Slot := ⟨s.above, s.bid, s.left, s.mark, first, mid ++ (Paragraph.kept bid' (front ++ rest) ++ below')⟩
    have hshows₃ : e.Shows s₂.page := by simpa [page, s₂] using hshows₂
    obtain ⟨r', hon, hkeeps₃, hshows₄, _⟩ := s₂.removed_on (r := { r₁ with document := e }) hshows₃
    refine ⟨s₂.removed, .toward s₂.removed.next?, r', (Run.on_bind_ok hedit).trans hon,
      ⟨hkeeps₂.trans hkeeps₃, hshows₄, Galley.resumption hshows₄,
        .intro (fun id hid ↦ ?_) fun l hl ↦ .inl (s₂.behind_removed l hl)⟩, fun ht ↦ ?_⟩
    · have hin : id ∈ first.map Leaf.id ++ Paragraph.order (mid ++ (Paragraph.kept bid' (front ++ rest) ++ below')) :=
        s₂.ahead_removed id hid
      rcases List.mem_append.1 hin with hin | hin
      · exact (hright.ids id hin).imp_left (List.mem_append_left _)
      · refine (hbelow.ids id ?_).imp_left (List.mem_append_right _)
        rw [Paragraph.order_append, Paragraph.order_append] at hin
        rw [List.flatMap_append, List.flatMap_cons]
        rcases List.mem_append.1 hin with hin | hin
        · exact List.mem_append_left _ hin
        rcases List.mem_append.1 hin with hin | hin
        · refine List.mem_append_right _ (List.mem_append_left _ ?_)
          rw [Paragraph.kept] at hin
          split at hin
          · simp [Paragraph.order] at hin
          · simp only [Paragraph.order, Paragraph.ids, List.flatMap_cons, List.flatMap_nil, List.append_nil, List.mem_cons,
              List.map_append, List.map_cons, List.mem_append] at hin ⊢
            tauto
        · exact List.mem_append_right _ (List.mem_append_right _ hin)
    · rw [sheet_removed ht s₂ payload, Gap.opened, gap, gap]
      simp only [s₂, List.map_append, Paragraph.lines_kept ht, Leaf.piecesOf_append]

/-- Both markers of a region go, the closing one first, and the scan goes on behind that one. -/
theorem skipped_on (h : r.document.Shows s.page) (hkeeps : r.Keeps r₁) (hp : s.Meets p)
    (hsought : Sought t r.document r₁.document s.above s.bid (s.left ++ [s.mark]) s.right s.below (some closing)
      (some reach))
    (hcontent : s.mark.content = .text (String.ofList (t.enclose payload))) :
    ∃ (G : Galley) (next : Continuation) (r' : RunState), (do
        let next ← Selection.removePlaceholder closing
        Run.edit fun d ↦ d.deletePlaceholder s.mark.id
        return next : Run Continuation).on r₁ = (.ok next, r') ∧
      s.Reaches t p r r' next G ∧ (t.Visible → G.sheet t = (s.gap t payload).skipped t (some reach)) := by
  have hgrows := hkeeps.grows
  have hdelete : ∀ (next : Continuation) {r₂ : RunState} {e : Document}, r₂.document.deletePlaceholder s.mark.id = .ok e →
      (do
        Run.edit fun d ↦ d.deletePlaceholder s.mark.id
        return next : Run Continuation).on r₂ = (.ok next, { r₂ with document := e }) := fun next r₂ e he ↦ by
    rw [Run.on_bind_ok (Run.on_edit he), Run.on_pure]
  cases hsought with
  | @here mid rest c sc hshows hc hright hsettled =>
    let s₁ : Slot := ⟨s.above, s.bid, s.left ++ s.mark :: mid, c, rest, s.below⟩
    have h₁ : r₁.document.Shows s₁.page := by simpa [page, s₁] using hshows
    obtain ⟨r₂, hon, hkeeps₂, h₂, hapart⟩ := s₁.removed_on h₁
    rw [Run.on_bind_ok hon]
    have hkeeps₂' := hkeeps.trans hkeeps₂
    by_cases hblank : (s₁.left ++ s₁.right).all (fun l ↦ l.content.isBlank) = true
    · -- The delimiters are blanks: the block went with the closing marker, the opening one in it.
      rw [removed, if_pos hblank] at h₂
      have hblock := hapart hblank
      have hb : (⟨s.bid, s₁.left ++ c :: rest⟩ : Paragraph) ∈ s.above ++ ⟨s.bid, s₁.left ++ c :: rest⟩ :: s.below := by simp
      have hroot : s.bid ≠ r₂.document.root := hkeeps₂.grows.root ▸ h₁.block_ne_root hb
      obtain ⟨f, hf, h₃, hgrows₃⟩ := h₂.deletePlaceholder_apart hblock hroot (h₁.nodup_ids hb) (l := s.mark)
        (by simp [s₁])
      have h₃' : f.Shows (Galley.between s.above s.below).page := h₃
      refine ⟨.between s.above s.below, _, _, hdelete _ hf, ⟨hkeeps₂'.trans (RunState.keeps_document hgrows₃), h₃', ?_,
        .intro (fun id hid ↦ .inl (List.mem_append_right _ hid)) fun l hl ↦ .inl (List.mem_append_left _ hl)⟩, fun ht ↦ ?_⟩
      · rw [removed, if_pos hblank]
        exact Galley.resumption h₃'
      · have hvisible := mark_visible ht hcontent
        simp [s₁, hvisible] at hblank
    · rw [removed, if_neg hblank] at h₂
      have h₂' : r₂.document.Shows (s.above ++ ⟨s.bid, s.left ++ s.mark :: (mid ++ rest)⟩ :: s.below) := by
        simpa [Galley.page, s₁] using h₂
      obtain ⟨e, he, h₃, hgrows₃, _⟩ := h₂'.deletePlaceholder
      have hkeeps₃ : r.Keeps { r₂ with document := e } := hkeeps₂'.trans (RunState.keeps_document hgrows₃)
      have hnext : s₁.removed.next? = ahead? rest s.below := by rw [removed, if_neg hblank, Galley.next?]
      rw [hnext]
      have hon₃ := hdelete (.toward (ahead? rest s.below)) he
      have hleft : t.Visible → (s.left.map Leaf.content ++ (Leaf.piecesOf t mid).map (Piece.content t)) =
          (s.left ++ mid).map Leaf.content := fun ht ↦ by rw [hsettled ht.toProper, List.map_append]
      have hblanks : t.Visible → (((s.left ++ mid).map Leaf.content).all Content.isBlank &&
          (Leaf.piecesOf t rest).all (Piece.isBlank t)) = (s.left ++ (mid ++ rest)).all fun l ↦ l.content.isBlank :=
        fun ht ↦ by
          rw [← List.append_assoc, List.all_append, Leaf.all_isBlank ht rest, List.all_map]
          rfl
      by_cases hline : (s.left ++ (mid ++ rest)).all (fun l ↦ l.content.isBlank) = true
      · rw [Paragraph.kept, if_pos hline, List.append_nil] at h₃
        have hskipped : t.Visible → (s.gap t payload).skipped t (some (.here (Leaf.piecesOf t mid) (Leaf.piecesOf t rest))) =
            if rest.isEmpty then .between (s.above.map Paragraph.text) (s.below.map (Paragraph.line t))
            else .halted (s.above.map Paragraph.text ++ s.below.map Paragraph.text) := fun ht ↦ by
          rw [Gap.skipped, gap]
          dsimp only
          rw [hleft ht, hblanks ht, if_pos hline, Leaf.piecesOf_isEmpty, Paragraph.lines_text]
        cases rest with
        | nil =>
          have h₃' : e.Shows (Galley.between s.above s.below).page := h₃
          refine ⟨.between s.above s.below, _, _, hon₃, ⟨hkeeps₃, h₃', Galley.resumption h₃',
            .intro (fun id hid ↦ .inl (List.mem_append_right _ hid)) fun l hl ↦ .inl (List.mem_append_left _ hl)⟩,
            fun ht ↦ ?_⟩
          rw [hskipped ht]
          rfl
        | cons x rest =>
          have hx : e.isAttached x.id = false := h₂'.isAttached_cut h₃ hgrows₃ (by simp [Paragraph.ids])
          have hlost : ∀ n, some x.id = some n → e.isAttached n = false := fun n hn ↦ by rwa [← Option.some.inj hn]
          obtain ⟨G, hpage, hnext', honward, hhalted⟩ := resumption_lost h hp hkeeps₃.grows h₃ hlost
          refine ⟨G, _, _, hon₃, ⟨hkeeps₃, by rw [hpage]; exact h₃, hnext', honward⟩, fun ht ↦ ?_⟩
          have hne : s.right ≠ [] := fun hnil ↦ by
            have hpieces := hright.pieces ht.toProper
            have hempty := Leaf.piecesOf_isEmpty (t := t) (mid ++ c :: x :: rest)
            rw [hpieces, hnil] at hempty
            simp [Leaf.piecesOf] at hempty
          rw [hskipped ht, hhalted hne, Galley.sheet, List.map_append]
          rfl
      · rw [Paragraph.kept, if_neg hline] at h₃
        have h₃' : e.Shows (Galley.within s.above s.bid (s.left ++ mid) rest s.below).page := by
          simpa [Galley.page] using h₃
        refine ⟨.within s.above s.bid (s.left ++ mid) rest s.below, _, _, hon₃, ⟨hkeeps₃, h₃', Galley.resumption h₃',
          .intro (fun id hid ↦ ?_) fun l hl ↦ ?_⟩, fun ht ↦ ?_⟩
        · rcases List.mem_append.1 hid with hid | hid
          · refine (hright.ids id ?_).imp_left (List.mem_append_left _)
            simp only [List.map_append, List.map_cons, List.mem_append, List.mem_cons]
            exact .inr (.inr hid)
          · exact .inl (List.mem_append_right _ hid)
        · rw [Galley.behind, ← List.append_assoc] at hl
          rcases List.mem_append.1 hl with hl | hl
          · exact .inl hl
          · have hin : l.id ∈ (mid ++ c :: rest).map Leaf.id := by simp [List.mem_map_of_mem (f := Leaf.id) hl]
            exact .inr (.inr ((hright.ids _ hin).imp_left (List.mem_append_left _)))
        · rw [Gap.skipped, gap]
          dsimp only
          rw [hleft ht, hblanks ht, if_neg hline]
          rfl
  | @there first front rest mid below' bid' c sc hshows hc hright hbelow hfirst hmid hfront =>
    let s₁ : Slot := ⟨s.above ++ ⟨s.bid, s.left ++ s.mark :: first⟩ :: mid, bid', front, c, rest, below'⟩
    have h₁ : r₁.document.Shows s₁.page := by simpa [page, s₁] using hshows
    obtain ⟨r₂, hon, hkeeps₂, h₂, _⟩ := s₁.removed_on h₁
    rw [Run.on_bind_ok hon]
    rw [page_removed] at h₂
    have h₂' : r₂.document.Shows (s.above ++ ⟨s.bid, s.left ++ s.mark :: first⟩ ::
        (mid ++ (Paragraph.kept bid' (front ++ rest) ++ below'))) := by simpa [s₁] using h₂
    obtain ⟨e, he, h₃, hgrows₃, _⟩ := h₂'.deletePlaceholder
    have hkeeps₃ : r.Keeps { r₂ with document := e } :=
      (hkeeps.trans hkeeps₂).trans (RunState.keeps_document hgrows₃)
    let s₂ : Slot := ⟨s.above ++ Paragraph.kept s.bid (s.left ++ first) ++ mid, bid', front, c, rest, below'⟩
    have h₃' : e.Shows s₂.removed.page := by
      rw [page_removed]
      simpa [s₂] using h₃
    have hnext : s₁.removed.next? = s₂.removed.next? := by
      rw [removed, removed]
      split <;> rfl
    rw [hnext]
    refine ⟨s₂.removed, _, _, hdelete _ he, ⟨hkeeps₃, h₃', Galley.resumption h₃', .intro (fun id hid ↦ ?_) fun l hl ↦ ?_⟩,
      fun ht ↦ ?_⟩
    · refine (hbelow.ids id ?_).imp_left (List.mem_append_right _)
      rw [List.flatMap_append, List.flatMap_cons]
      rcases List.mem_append.1 (s₂.ahead_removed id hid) with hin | hin
      · refine List.mem_append_right _ (List.mem_append_left _ ?_)
        simp only [Paragraph.ids, List.map_append, List.map_cons, List.mem_cons, List.mem_append]
        exact .inr (.inr (.inr hin))
      · exact List.mem_append_right _ (List.mem_append_right _ hin)
    · have hfirst' : ∀ l ∈ first, l.id ∈ s.ahead ∨ r.document.node? l.id = none := fun l hl ↦
        (hright.ids _ (List.mem_map_of_mem hl)).imp_left (List.mem_append_left _)
      have hrest' : ∀ l ∈ mid.flatMap Paragraph.leaves ++ front, l.id ∈ s.ahead ∨ r.document.node? l.id = none := fun l hl ↦ by
        refine (hbelow.ids _ ?_).imp_left (List.mem_append_right _)
        rw [List.flatMap_append, List.flatMap_cons]
        rcases List.mem_append.1 hl with hl | hl
        · exact List.mem_append_left _ (Paragraph.mem_order_of_leaf hl)
        · simp [Paragraph.ids, List.mem_map_of_mem (f := Leaf.id) hl]
      have hin := s₂.behind_removed l hl
      simp only [behind, s₂, List.flatMap_append, List.append_assoc] at hin
      rcases List.mem_append.1 hin with hin | hin
      · exact .inl (List.mem_append_left _ hin)
      rcases List.mem_append.1 hin with hin | hin
      · rcases List.mem_append.1 (Paragraph.leaves_kept _ _ l hin) with hin | hin
        · exact .inl (List.mem_append_right _ hin)
        · exact .inr (.inr (hfirst' l hin))
      · exact .inr (.inr (hrest' l hin))
    · have hopener : s.left.map Leaf.content ++ (Leaf.piecesOf t first).map (Piece.content t) =
          (s.left ++ first).map Leaf.content := by rw [hfirst ht.toProper, List.map_append]
      have hkept : (Paragraph.kept s.bid (s.left ++ first)).map Paragraph.text =
          if ((s.left ++ first).map Leaf.content).all Content.isBlank then []
          else [Content.line ((s.left ++ first).map Leaf.content)] := by
        rw [Paragraph.kept, List.all_map]
        dsimp only [Function.comp_def]
        split <;> rfl
      have hfront' : (Leaf.piecesOf t front).all (Piece.isBlank t) = (front.map Leaf.content).all Content.isBlank := by
        rw [← Leaf.all_isBlank ht, List.all_map]
        rfl
      rw [sheet_removed ht s₂ payload, Gap.removed, Gap.skipped, gap, gap]
      simp only [s₂, List.map_append, hkept, hopener, hfront', Paragraph.lines_text, hfront ht.toProper]

end Slot

end Stencil
