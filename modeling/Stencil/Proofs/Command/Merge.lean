import Stencil.Proofs.Command.Block
import Stencil.Proofs.Command.Deed
import Stencil.Proofs.Command.Failure
import Stencil.Proofs.Document.Lines
/-!
Merging a text into a page. Blocks with its lines are put before the slot's own block, and the scan comes
back to what stands before the marker there.
-/

namespace Stencil

variable {t : Delimiters} {s : Slot} {r r' : RunState} {p : Placeholder} {c : Selection} {payload : List Char}

/-! ### The blocks of a text -/

theorem FragmentBounds.choose_map (b : FragmentBounds) (f : NodeId → NodeId) (blocks : List (String × NodeId)) :
    b.choose (blocks.map (Prod.map id f)) = (b.choose blocks).map (Prod.map id f) := by
  have huntil : ∀ l : List (String × NodeId), b.untilClosing (l.map (Prod.map id f)) = (b.untilClosing l).map (Prod.map id f) := fun l ↦ by
    rw [untilClosing, untilClosing]
    cases b.closing? with
    | none => rfl
    | some p => exact List.takeWhile_map ..
  rw [choose, choose]
  cases b.opening? with
  | none => exact huntil blocks
  | some p =>
    have hskip : (blocks.map (Prod.map id f)).dropWhile (fun x ↦ !p.matchesIn x.1) =
        (blocks.dropWhile fun x ↦ !p.matchesIn x.1).map (Prod.map id f) := List.dropWhile_map ..
    dsimp only
    rw [hskip, ← List.map_drop, huntil]

theorem FragmentBounds.map_choose (b : FragmentBounds) (blocks : List (String × NodeId)) :
    (b.choose blocks).map Prod.fst = b.chosen (blocks.map Prod.fst) := by
  have hbare : (fun s : String ↦ (s, (⟨0, 0⟩ : NodeId))) ∘ Prod.fst = Prod.map id fun _ : NodeId ↦ ⟨0, 0⟩ := rfl
  rw [chosen, List.map_map, hbare, choose_map, List.map_map]
  rfl

theorem Document.Shows.textContent_line {d : Document} {page : List Paragraph} (h : d.Shows page) {b : Paragraph} (hb : b ∈ page)
    {line : String} (hline : b.contents = [.text line]) : d.textContent b.id = line := by
  obtain ⟨l, hleaves, hcontent⟩ : ∃ l, b.leaves = [l] ∧ l.content = .text line := by
    obtain ⟨l, hl, hcontent⟩ := List.map_eq_singleton_iff.1 hline
    exact ⟨l, hl, hcontent⟩
  have hl : l ∈ b.leaves := by rw [hleaves]; exact List.mem_singleton_self l
  have hchildren : d.children b.id = [l.id] := by rw [h.children_block hb, hleaves]; rfl
  have hpreorder : ∀ n, d.preorder n l.id = [l.id] := fun n ↦ by
    cases n with
    | zero => rfl
    | succ n => rw [preorder, h.children_leaf hb hl]; rfl
  obtain ⟨n, hn⟩ : ∃ n, d.size = n + 1 := ⟨d.size - 1, by have := h.size_pos; omega⟩
  have hblock : d.text? b.id = none := by rw [text?, data?, (h.blocks b hb).node]; rfl
  have hleaf : d.text? l.id = some line := by rw [h.text?_leaf hb hl, hcontent]
  rw [textContent, descendants, hn, preorder, hchildren, List.flatMap_singleton, hpreorder, List.filterMap_cons, hblock,
    List.filterMap_cons, hleaf]
  simp

theorem Document.blocks_ofText (serial : ℕ) (text : String) : ∃ page, (ofText serial text).Shows page ∧
    ((ofText serial text).children (ofText serial text).root).map (fun id ↦ ((ofText serial text).textContent id, id)) =
      page.map (fun b ↦ (b.text, b.id)) ∧
    page.map Paragraph.text = (Text.lines text.toList).map String.ofList ∧ ∀ b ∈ page, b.contents = [.text b.text] := by
  obtain ⟨page, hshows, hcontents⟩ := shows_ofText serial text
  have hline : ∀ {b : Paragraph} {line : String}, b.contents = [.text line] → b.text = line := fun {b line} h ↦ by
    rw [Paragraph.text, ← Paragraph.contents, h]
    simp [Content.line, Content.shown]
  have hpage : ∀ b ∈ page, b.contents = [.text b.text] := fun b hb ↦ by
    have hmem : b.contents ∈ page.map Paragraph.contents := List.mem_map_of_mem hb
    rw [hcontents] at hmem
    obtain ⟨line, _, h⟩ := List.mem_map.1 hmem
    rw [hline h.symm, ← h]
  refine ⟨page, hshows, ?_, ?_, hpage⟩
  · rw [hshows.children_root, List.map_map]
    exact List.map_congr_left fun b hb ↦ congrArg (·, b.id) (hshows.textContent_line hb (hpage b hb))
  · have htexts := congrArg (List.map Content.line) hcontents
    rw [List.map_map, List.map_map] at htexts
    refine htexts.trans (List.map_congr_left fun line _ ↦ ?_)
    simp [Content.line, Content.shown]

/-! ### Merging blocks -/

namespace Handler

open Run

theorem importBlocks_on {source : Document} {page below : List Paragraph} {b : Paragraph} (hsource : source.Shows page) :
    ∀ (blocks : List (String × NodeId)) (above : List Paragraph) (r : RunState),
      (∀ x ∈ blocks, ∃ b ∈ page, b.id = x.2 ∧ b.contents = [.text x.1]) → r.document.Shows (above ++ b :: below) →
      ∃ copies r', (blocks.mapM fun x ↦ importBefore source b.id x.2).on r = (.ok (copies.map Paragraph.id), r') ∧ r.Keeps r' ∧
        r'.document.Shows (above ++ copies ++ b :: below) ∧ copies.map Paragraph.contents = (blocks.map fun x ↦ [.text x.1]) ∧
        ∀ id ∈ Paragraph.order copies, r.document.node? id = none := by
  intro blocks
  induction blocks with
  | nil => exact fun above r _ h ↦ ⟨[], r, rfl, .refl r, by simpa using h, rfl, by simp [Paragraph.order]⟩
  | cons x blocks ih =>
    intro above r hblocks h
    rw [List.forall_mem_cons] at hblocks
    obtain ⟨b', hb', hid, hcontents⟩ := hblocks.1
    obtain ⟨copy, e, hcopy, hcopied⟩ := hsource.importSubtree_block hb' r.document
    obtain ⟨f, hinsert, hshows, hgrows⟩ := h.insertCopy hcopied
    have himport : (importBefore source b.id x.2).on r = (.ok copy.id, { r with document := f }) := by
      rw [importBefore, on_bind_ok (on_editFor (by rw [← hid]; exact hcopy)),
        on_bind_ok (on_edit (r := { r with document := e }) hinsert), on_pure]
    obtain ⟨copies, r', hon, hkeeps, hshows', hcontents', hnew⟩ := ih (above ++ [copy]) { r with document := f } hblocks.2
      (by simpa using hshows)
    refine ⟨copy :: copies, r', ?_, (RunState.keeps_document hgrows).trans hkeeps, by simpa using hshows', ?_, ?_⟩
    · rw [List.mapM_cons, on_bind_ok himport, on_bind_ok hon]
      rfl
    · rw [List.map_cons, List.map_cons, hcontents', Paragraph.contents, hcopied.contents]
      exact congrArg (· :: _) hcontents
    · intro id hid
      rw [Paragraph.order_cons] at hid
      rcases List.mem_append.1 hid with hid | hid
      · exact hcopied.new id hid
      · exact hgrows.unknown (hnew id hid)

end Handler

namespace Slot

def mergedOutcome (copies : List NodeId) (next : Continuation) : Outcome :=
  match copies with
  | first :: _ => .executed (.at first)
  | [] => .executed next

/-- Blocks are put before the slot's block and the marker goes. The scan goes on at the first of them, or
behind the marker when there is none. -/
theorem merge_on (h : r.document.Shows s.page) (hc : s.Hosts t c payload) (text : String) (bounds : FragmentBounds) :
    s.Answers t p r (c.perform (.merge text bounds))
      (some (.ok (.moved ((s.gap t payload).merged t (bounds.lines t text))), r.desk)) := by
  obtain ⟨page, hsource, hblocks, htexts, hpage⟩ := Document.blocks_ofText r.nextSerial text
  let blocks : List (String × NodeId) := page.map fun b ↦ (b.text, b.id)
  have hchosen : ∀ x ∈ bounds.choose blocks, ∃ b ∈ page, b.id = x.2 ∧ b.contents = [.text x.1] := fun x hx ↦ by
    obtain ⟨b, hb, rfl⟩ := List.mem_map.1 (Handler.choose_subset _ _ hx)
    exact ⟨b, hb, rfl, hpage b hb⟩
  let r₀ : RunState := { r with nextSerial := r.nextSerial + 1 }
  have hblock : r₀.document.blockOf c.node = s.bid := by
    rw [hc.node]
    exact h.blockOf_leaf (b := ⟨s.bid, s.left ++ s.mark :: s.right⟩) (by simp [Slot.page]) (by simp)
  obtain ⟨copies, r₁, hon, hkeeps, hshows, hcopies, hnew⟩ := Handler.importBlocks_on hsource _ s.above r₀ hchosen h
  let r₂ : RunState := { r₁ with log := .imported copies.length :: r₁.log }
  let s₂ : Slot := ⟨s.above ++ copies, s.bid, s.left, s.mark, s.right, s.below⟩
  have h₂ : r₂.document.Shows s₂.page := by simpa [Slot.page, s₂] using hshows
  obtain ⟨r', hon', hkeeps', hshows', _⟩ := s₂.removed_on h₂
  -- the copies hold the lines that the text brings in
  have hlines : copies.map (Paragraph.line t) = bounds.lines t text := by
    have hmap := congrArg (List.map fun cs : List Content ↦ cs.flatMap (Content.pieces t)) hcopies
    have hfst : blocks.map Prod.fst = (Text.lines text.toList).map String.ofList := by
      rw [← htexts, List.map_map]
      rfl
    rw [List.map_map, List.map_map] at hmap
    rw [FragmentBounds.lines, ← hfst, ← FragmentBounds.map_choose, List.map_map]
    refine Eq.trans (List.map_congr_left fun b _ ↦ ?_) (hmap.trans (List.map_congr_left fun x _ ↦ ?_))
    · rw [Paragraph.line, Leaf.piecesOf, Function.comp_apply, Paragraph.contents, List.flatMap_map]
    · simp [Content.pieces]
  have hrun : (c.perform (.merge text bounds)).on r =
      (.ok (mergedOutcome (copies.map Paragraph.id) (.toward s₂.removed.next?)), r') := by
    have hnewDocument : (Run.newDocument text).on r = (.ok (Document.ofText r.nextSerial text), r₀) := rfl
    rw [Selection.perform, Run.on_bind_ok hnewDocument, Run.on_bind_ok (Run.on_document r₀), hblocks, hblock, Run.on_bind_ok hon,
      List.length_map, Run.on_bind_ok (Run.on_log _ r₁), hc.node, Run.on_bind_ok hon']
    cases copies <;> rfl
  have hleads : r.Leads r₁ := ⟨hkeeps.log, hkeeps.grows, hkeeps.report⟩
  have hdesk : r'.desk = r.desk := hkeeps'.desk.trans hkeeps.desk
  cases copies with
  | nil =>
    have hs₂ : s₂ = s := by simp [s₂]
    have hleads' : r.Leads r' := (hleads.trans (RunState.keeps_log (r := r₁) (e := .imported 0) rfl).toLeads).trans hkeeps'.toLeads
    rw [hs₂] at hshows' hrun
    refine ⟨_, _, r', hrun, .moved hleads' hshows' (Galley.resumption hshows')
      (.intro (fun id hid ↦ .inl (s.ahead_removed id hid)) fun l hl ↦ .inl (s.behind_removed l hl)), fun ht a ha ↦ ?_⟩
    rw [← Option.some.inj ha, Gap.merged, ← hlines, sheet_removed ht s payload]
    exact ⟨rfl, hdesk⟩
  | cons b copies =>
    let G : Galley := .between s.above ((b :: copies) ++ (Paragraph.kept s.bid (s.left ++ s.right) ++ s.below))
    have hpage : r'.document.Shows G.page := by
      rw [page_removed] at hshows'
      simpa [Galley.page, G, s₂] using hshows'
    obtain ⟨new, hlog, _⟩ := hleads.log
    obtain ⟨new', hlog', _⟩ := hkeeps'.log
    have hlogs : r'.log = (new' ++ .imported (copies.length + 1) :: new) ++ r.log := by
      rw [hlog']
      simp [r₂, hlog]
    have hmerges : .imported (copies.length + 1) ∈ new' ++ .imported (copies.length + 1) :: new := by simp
    have hsheet : t.Visible → G.sheet t = (s.gap t payload).merged t (bounds.lines t text) := fun ht ↦ by
      have hleft : (s.left.map Leaf.content).flatMap (Content.pieces t) ++ Leaf.piecesOf t s.right = Leaf.piecesOf t (s.left ++ s.right) := by
        rw [Leaf.piecesOf_append, Leaf.piecesOf, List.flatMap_map]
        rfl
      rw [Gap.merged, ← hlines, if_neg (by simp), Slot.gap, hleft, ← Paragraph.lines_kept ht s.bid, Galley.sheet,
        List.map_append, List.map_append]
    refine ⟨_, _, r', hrun, .merged (hleads.grows.trans hkeeps'.grows) (hkeeps'.report.trans hleads.report) hlogs hmerges hpage
      (Galley.resumption hpage) ⟨fun id hid ↦ ?_, fun id hid hin ↦ ?_, fun l hl ↦ .inl (List.mem_append_left _ hl)⟩, fun ht a ha ↦ ?_⟩
    · rw [Galley.ahead, Paragraph.order_append, Paragraph.order_append] at hid
      rcases List.mem_append.1 hid with hid | hid
      · exact .inr (.inr (hnew id hid))
      rcases List.mem_append.1 hid with hid | hid
      · rcases Paragraph.order_kept _ _ id hid with rfl | hid
        · exact .inl (List.mem_cons_self ..)
        · rw [List.map_append] at hid
          rcases List.mem_append.1 hid with hid | hid
          · exact .inl (List.mem_cons_of_mem _ hid)
          · exact .inr (.inl (List.mem_append_left _ hid))
      · exact .inr (.inl (List.mem_append_right _ hid))
    · -- a node of the slot's block is in none of the blocks above it
      have hblock : id ∈ (⟨s.bid, s.left ++ s.mark :: s.right⟩ : Paragraph).ids := by
        rw [Paragraph.ids, List.map_append]
        rcases List.mem_cons.1 hid with rfl | hid
        · exact List.mem_cons_self ..
        · exact List.mem_cons_of_mem _ (List.mem_append_left _ hid)
      have hnodup := (List.nodup_cons.1 h.nodup).2
      rw [Slot.page, List.flatMap_append, List.flatMap_cons] at hnodup
      rw [Galley.page, Paragraph.order_append] at hin
      exact (List.mem_append.1 hin).resolve_left fun habove ↦
        (List.nodup_append.1 hnodup).2.2 id habove id (List.mem_append_left _ hblock) rfl
    · rw [← Option.some.inj ha, ← hsheet ht]
      exact ⟨rfl, hdesk⟩

end Slot

end Stencil
