import Stencil.Proofs.Run.Turn
import Stencil.Renderer
/-!
The course of a scan: from a galley it goes to the first marker ahead, deals with it in a turn, and goes on in
the galley that the turn leaves. On the sheets of these galleys it comes to what a scan of sheets comes to.
-/

namespace Stencil

open Document (ahead? FoundBelow Found)

variable {t : Delimiters} {d e : Document} {r r' : RunState} {G : Galley} {s : Slot} {sc : Scanner} {m : Manual}
  {payload : List Char} {id : NodeId}

/-! ### The marker that a scan meets next -/

namespace Sheet

theorem findBelow?_words {mid : List Line} (h : ∀ l ∈ mid, ∀ q ∈ l, q.isMarker = false) (above : List String)
    (below : List Line) : findBelow? t above (mid ++ below) = findBelow? t (above ++ mid.map (Piece.line t)) below := by
  induction mid generalizing above with
  | nil => simp
  | cons l mid ih =>
    rw [List.cons_append, findBelow?, Piece.breakMarker?_none (h l (List.mem_cons_self ..))]
    dsimp only
    rw [ih fun x hx ↦ h x (List.mem_cons_of_mem _ hx), List.map_cons, List.append_assoc, List.singleton_append]

theorem findBelow?_none {below : List Line} (h : ∀ l ∈ below, ∀ q ∈ l, q.isMarker = false) (above : List String) :
    findBelow? t above below = none := by
  rw [← List.append_nil below, findBelow?_words h]
  rfl

theorem findBelow?_marker {mid : List Line} {front right : Line} (hmid : ∀ l ∈ mid, ∀ q ∈ l, q.isMarker = false)
    (hfront : ∀ q ∈ front, q.isMarker = false) (above : List String) (below : List Line) :
    findBelow? t above (mid ++ (front ++ .marker payload :: right) :: below) =
      some ⟨above ++ mid.map (Piece.line t), front.map (Piece.content t), payload, right, below⟩ := by
  rw [findBelow?_words hmid, findBelow?, Piece.breakMarker?_append hfront]

end Sheet

/-- A marker ahead in a galley: its own node, and those behind it, were ahead or are new. -/
structure Galley.Meets (G : Galley) (d : Document) (s : Slot) : Prop where
  mark : s.mark.id ∈ G.ahead ∨ d.node? s.mark.id = none
  ahead : ∀ id ∈ s.ahead, id ∈ G.ahead ∨ d.node? id = none
  behind : ∀ l ∈ s.behind, l ∈ G.behind ∨ l.id ∈ G.ahead ∨ d.node? l.id = none

/-- What a search from a galley comes to: nothing, and the document is as it was, or the first marker
ahead, cut out of the text that it stood in. -/
inductive Galley.Finds (t : Delimiters) (d e : Document) (G : Galley) : Option NodeId → Prop where
  | nothing : e = d → (t.Proper → (G.sheet t).find? t = none) → Finds t d e G none
  | marker {s : Slot} {payload : List Char} : e.Shows s.page → s.mark.content = .text (String.ofList (t.enclose payload)) →
      (t.Proper → t.payload? (t.enclose payload) = some payload) → (t.Proper → (G.sheet t).find? t = some (s.gap t payload)) →
      G.Meets d s → Finds t d e G (some s.mark.id)

namespace Galley

theorem finds_below {above below : List Paragraph} {result : Option NodeId} (h : FoundBelow t d e above below result) :
    (Galley.between above below).Finds t d e result := by
  cases h with
  | nothing hdoc hnone => exact .nothing hdoc fun _ ↦ Sheet.findBelow?_none (words_of_uncut_all hnone) _
  | @marker payload front back m mid below' b hbelow hmid hshows hcut =>
    subst hbelow
    let s : Slot := ⟨above ++ mid, b.id, front, m, back, below'⟩
    have hids : ∀ id ∈ (front ++ m :: back).map Leaf.id,
        id ∈ (Galley.between above (mid ++ b :: below')).ahead ∨ d.node? id = none := fun id hid ↦
      (hcut.ids id hid).imp_left fun hid ↦ by simp [Galley.ahead, Paragraph.order, Paragraph.ids, -List.mem_map, hid]
    refine .marker (s := s) hshows hcut.content hcut.read (fun ht ↦ ?_) ⟨hids _ (by simp [s]), fun id hid ↦ ?_, fun l hl ↦ ?_⟩
    · have hline : b.line t = Leaf.piecesOf t front ++ .marker payload :: Leaf.piecesOf t back := hcut.pieces ht
      rw [Galley.sheet, Sheet.find?, List.map_append, List.map_cons, hline,
        Sheet.findBelow?_marker (words_of_uncut_all hmid) (words_of_uncut (hcut.words ht)), Paragraph.lines_text,
        settled_of_uncut hcut.words ht, Slot.gap, List.map_append]
    · rcases List.mem_append.1 hid with hid | hid
      · exact hids id (by rw [List.map_append, List.map_cons]; exact List.mem_append_right _ (List.mem_cons_of_mem _ hid))
      · refine .inl ?_
        rw [Galley.ahead, Paragraph.order, List.flatMap_append, List.flatMap_cons]
        exact List.mem_append_right _ (List.mem_append_right _ hid)
    · rcases List.mem_append.1 hl with hl | hl
      · rw [List.flatMap_append, List.mem_append] at hl
        rcases hl with hl | hl
        · exact .inl hl
        · obtain ⟨x, hx, hl⟩ := List.mem_flatMap.1 hl
          refine .inr (.inl ?_)
          rw [Galley.ahead, Paragraph.order, List.flatMap_append, List.mem_append]
          exact .inl (List.mem_flatMap.2 ⟨x, hx, List.mem_cons_of_mem _ (List.mem_map_of_mem hl)⟩)
      · exact .inr (hids l.id (List.mem_map_of_mem (List.mem_append_left _ hl)))

theorem finds_within {above below : List Paragraph} {bid : NodeId} {left right : List Leaf} {result : Option NodeId}
    (h : Found t d e above bid left right below result) :
    (Galley.within above bid left right below).Finds t d e result := by
  cases h with
  | @here payload front back m hshows hcut =>
    let s : Slot := ⟨above, bid, left ++ front, m, back, below⟩
    have hids : ∀ id ∈ (front ++ m :: back).map Leaf.id,
        id ∈ (Galley.within above bid left right below).ahead ∨ d.node? id = none := fun id hid ↦
      (hcut.ids id hid).imp_left fun hid ↦ List.mem_append_left _ hid
    refine .marker (s := s) (by simpa [Slot.page, s] using hshows) hcut.content hcut.read (fun ht ↦ ?_)
      ⟨hids _ (by simp [s]), fun id hid ↦ ?_, fun l hl ↦ ?_⟩
    · rw [Galley.sheet, Sheet.find?, hcut.pieces ht, Piece.breakMarker?_append (words_of_uncut (hcut.words ht))]
      dsimp only
      rw [settled_of_uncut hcut.words ht, Slot.gap, List.map_append]
    · rcases List.mem_append.1 hid with hid | hid
      · exact hids id (by rw [List.map_append, List.map_cons]; exact List.mem_append_right _ (List.mem_cons_of_mem _ hid))
      · exact .inl (List.mem_append_right _ hid)
    · rw [Slot.behind, ← List.append_assoc] at hl
      rcases List.mem_append.1 hl with hl | hl
      · exact .inl hl
      · exact .inr (hids l.id (List.mem_map_of_mem (List.mem_append_left _ hl)))
  | further hnone hbelow =>
    have hbehind : ∀ l ∈ (Galley.between (above ++ [⟨bid, left ++ right⟩]) below).behind,
        l ∈ (Galley.within above bid left right below).behind ∨ l.id ∈ (Galley.within above bid left right below).ahead :=
      fun l hl ↦ by
        simp only [Galley.behind, List.flatMap_append, List.flatMap_singleton, List.mem_append] at hl ⊢
        rcases hl with hl | hl | hl
        · exact .inl (.inl hl)
        · exact .inl (.inr hl)
        · exact .inr (List.mem_append_left _ (List.mem_map_of_mem hl))
    have hsheet : t.Proper → ((Galley.within above bid left right below).sheet t).find? t =
        ((Galley.between (above ++ [⟨bid, left ++ right⟩]) below).sheet t).find? t := fun ht ↦ by
      rw [Galley.sheet, Sheet.find?, Piece.breakMarker?_none (words_of_uncut hnone)]
      dsimp only
      rw [Galley.sheet, Sheet.find?, List.map_append, settled_of_uncut (fun _ ↦ hnone) ht, List.map_singleton,
        Paragraph.text, List.map_append]
    cases finds_below hbelow with
    | nothing hdoc hfind => exact .nothing hdoc fun ht ↦ (hsheet ht).trans (hfind ht)
    | marker hshows hcontent hread hfind hmeets =>
      refine .marker hshows hcontent hread (fun ht ↦ (hsheet ht).trans (hfind ht))
        ⟨hmeets.mark.imp_left (List.mem_append_right _), fun id hid ↦ (hmeets.ahead id hid).imp_left (List.mem_append_right _),
          fun l hl ↦ ?_⟩
      rcases hmeets.behind l hl with hl | hl | hl
      · exact (hbehind l hl).imp_right .inl
      · exact .inr (.inl (List.mem_append_right _ hl))
      · exact .inr (.inr hl)

theorem search_on (hshows : r.document.Shows G.page) (hnext : G.next? = some id) : ∃ result r',
    (Run.search (.ofDelimiters t) id).on r = (.ok result, r') ∧ r.Keeps r' ∧ G.Finds t r.document r'.document result := by
  have hrun : ∀ {e : Document} {split? : Option (NodeId × String)} {result : Option NodeId},
      r.document.search t id = ⟨e, split?, .ok result⟩ → r.document.Grows e → G.Finds t r.document e result →
      ∃ result r', (Run.search (.ofDelimiters t) id).on r = (.ok result, r') ∧ r.Keeps r' ∧
        G.Finds t r.document r'.document result := fun hsearch hgrows hfinds ↦ by
    obtain ⟨r', hon, hdoc, hkeeps⟩ := Run.search_on hsearch hgrows
    exact ⟨_, r', hon, hkeeps, hdoc ▸ hfinds⟩
  cases G with
  | within above bid left right below =>
    obtain ⟨e, split?, result, hsearch, hfound, hgrows⟩ := hshows.search_within (t := t) hnext
    exact hrun hsearch hgrows (finds_within hfound)
  | between above below =>
    obtain ⟨e, split?, result, hsearch, hfound, hgrows⟩ := hshows.search_blocks (t := t) hnext
    exact hrun hsearch hgrows (finds_below hfound)
  | halted page => cases hnext

end Galley

namespace Galley

theorem find?_of_next? (h : G.next? = none) : (G.sheet t).find? t = none := by
  cases G with
  | within above bid left right below =>
    obtain ⟨rfl, rfl⟩ : right = [] ∧ below = [] := by
      cases right <;> cases below <;> simp [next?, ahead?] at h ⊢
    rfl
  | between above below =>
    obtain rfl : below = [] := by simpa [next?] using h
    rfl
  | halted page => rfl

end Galley

/-! ### Scans -/

namespace Scanner

open Run

/-- What a scan comes to, and what it leaves. It is what is expected on the sheet. -/
inductive Concludes (m : Manual) (t : Delimiters) (r r' : RunState) (expected? : Option (Except RunError Draft)) :
    Except RunError Unit → Prop where
  | failed {e : RunError} : (t.Visible → ∀ x, expected? = some x → x = .error e) → Concludes m t r r' expected? (.error e)
  | finished {page : List Paragraph} : r'.document.Shows page → (∃ new, r'.log = new ++ r.log) →
      (t.Visible → m.Expects r'.log expected? (.ok ⟨.halted (page.map Paragraph.text), r'.desk, r'.report⟩)) →
      Concludes m t r r' expected? (.ok ())

theorem Concludes.expect {expected? expected'? : Option (Except RunError Draft)} {result : Except RunError Unit}
    (h : Concludes m t r r' expected? result) (hsame : t.Visible → expected'? = expected? ∨ expected'? = none ∧ m.Strays r.log) :
    Concludes m t r r' expected'? result := by
  cases h with
  | failed hfailed =>
    refine .failed fun ht x hx ↦ ?_
    rcases hsame ht with rfl | ⟨rfl, _⟩
    · exact hfailed ht x hx
    · cases hx
  | finished hshows hlog hexact =>
    refine .finished hshows hlog fun ht ↦ ?_
    rcases hsame ht with rfl | ⟨rfl, hstrays⟩
    · exact hexact ht
    · exact .inr ⟨rfl, hstrays.later hlog⟩

theorem Concludes.earlier {r'' : RunState} {expected? : Option (Except RunError Draft)} {result : Except RunError Unit}
    (h : Concludes m t r' r'' expected? result) (hlog : ∃ new, r'.log = new ++ r.log) : Concludes m t r r'' expected? result := by
  cases h with
  | failed hfailed => exact .failed hfailed
  | finished hshows hlog' hexact =>
    obtain ⟨new, hnew⟩ := hlog
    obtain ⟨new', hnew'⟩ := hlog'
    exact .finished hshows ⟨new' ++ new, by rw [hnew', hnew, List.append_assoc]⟩ hexact

theorem Concludes.of_none (hdelimiters : sc.toolkit.delimiters = t) (hshows : r'.document.Shows G.page)
    (hfind : t.Visible → (G.sheet t).find? t = none) (n : ℕ) :
    Concludes m t r' r' (Draft.scan sc m n ⟨G.sheet t, r'.desk, r'.report⟩) (.ok ()) := by
  refine .finished hshows ⟨[], rfl⟩ fun ht ↦ .inl ?_
  subst hdelimiters
  rw [Draft.scan_done (hfind ht), Draft.finish, Galley.lines_sheet]

/-- A scan in a galley comes to what the scan of its sheet comes to. -/
theorem scanFrom_on (hs : sc.registry = .builtin) (htoolkit : sc.toolkit = .ofDelimiters t) (hm : sc.Follows m) :
    ∀ (n : ℕ) (r : RunState) (G : Galley) (id : NodeId), r.document.Shows G.page →
    (∃ result r₁, (Run.search (.ofDelimiters t) id).on r = (.ok result, r₁) ∧ r.Keeps r₁ ∧
      G.Finds t r.document r₁.document result) →
    ∃ result r', (sc.scanFrom n id).on r = (result, r') ∧
      Concludes m t r r' (Draft.scan sc m n ⟨G.sheet t, r.desk, r.report⟩) result := by
  have hdelimiters : sc.toolkit.delimiters = t := congrArg Toolkit.delimiters htoolkit
  intro n
  induction n with
  | zero =>
    rintro r G id hshows ⟨result, r₁, hsearch, hkeeps, hfinds⟩
    obtain ⟨new, hnew, _⟩ := hkeeps.log
    rw [scanFrom.eq_def, htoolkit, on_bind_ok hsearch, ← hkeeps.desk, ← hkeeps.report]
    cases hfinds with
    | nothing hdoc hfind =>
      have hshows₁ : r₁.document.Shows G.page := hdoc ▸ hshows
      have hnone := Concludes.of_none (m := m) hdelimiters hshows₁ (fun ht ↦ hfind ht.toProper) 0
      exact ⟨.ok (), r₁, rfl, hnone.earlier ⟨new, hnew⟩⟩
    | marker hshows₁ hcontent hread hfind hmeets =>
      refine ⟨_, r₁, rfl, .failed fun ht x hx ↦ ?_⟩
      rw [← hdelimiters] at hfind hx ht
      rw [Draft.scan_zero (hfind ht.toProper)] at hx
      exact (Option.some.inj hx).symm
  | succ n ih =>
    rintro r G id hshows ⟨result, r₁, hsearch, hkeeps, hfinds⟩
    obtain ⟨new, hnew, _⟩ := hkeeps.log
    rw [scanFrom.eq_def, htoolkit, on_bind_ok hsearch, ← hkeeps.desk, ← hkeeps.report]
    cases hfinds with
    | nothing hdoc hfind =>
      have hshows₁ : r₁.document.Shows G.page := hdoc ▸ hshows
      have hnone := Concludes.of_none (m := m) hdelimiters hshows₁ (fun ht ↦ hfind ht.toProper) (n + 1)
      exact ⟨.ok (), r₁, rfl, hnone.earlier ⟨new, hnew⟩⟩
    | @marker s payload hshows₁ hcontent hread hfind hmeets =>
      obtain ⟨result, r₂, hvisit, hends⟩ := visit_on hs htoolkit hm hshows₁ hcontent hread
      have hscan : t.Visible → Draft.scan sc m (n + 1) ⟨G.sheet t, r₁.desk, r₁.report⟩ = _ := fun ht ↦
        Draft.scan_succ (D := ⟨G.sheet t, r₁.desk, r₁.report⟩) (g := s.gap t payload) (by rw [hdelimiters]; exact hfind ht.toProper) n
      dsimp only
      cases hends with
      | failed hfailed =>
        refine ⟨_, r₂, on_bind_error hvisit, .failed fun ht x hx ↦ ?_⟩
        rw [hscan ht] at hx
        rcases hy : (s.gap t payload).visit sc m r₁.desk r₁.report with _ | y <;> simp only [hy] at hx
        · cases hx
        · obtain rfl := hfailed ht y hy
          exact (Option.some.inj hx).symm
      | @turned next? G' hturns hgoes hexact =>
        obtain ⟨new', hnew'⟩ := hturns.grown
        have hlog : ∃ new, r₂.log = new ++ r.log := ⟨new' ++ new, by rw [hnew', hnew, List.append_assoc]⟩
        -- the sheet is scanned as it is left, unless a command was met that the manual leaves out
        have hexpect : t.Visible → Draft.scan sc m (n + 1) ⟨G.sheet t, r₁.desk, r₁.report⟩ =
              Draft.scan sc m n ⟨G'.sheet t, r₂.desk, r₂.report⟩ ∨
            Draft.scan sc m (n + 1) ⟨G.sheet t, r₁.desk, r₁.report⟩ = none ∧ m.Strays r₂.log := fun ht ↦ by
          rw [hscan ht]
          rcases hexact ht with hy | ⟨hy, hstrays⟩ <;> simp only [hy]
          · exact .inl trivial
          · exact .inr ⟨trivial, hstrays⟩
        rw [on_bind_ok hvisit]
        cases next? with
        | none =>
          have hnone := Concludes.of_none (m := m) hdelimiters hturns.page (fun _ ↦ Galley.find?_of_next? hgoes.symm) n
          exact ⟨.ok (), r₂, rfl, (hnone.expect hexpect).earlier hlog⟩
        | some next =>
          obtain ⟨result, r₃, hscanFrom, hconcludes⟩ :=
            ih r₂ G' next hturns.page (Galley.search_on hturns.page hgoes.symm)
          exact ⟨result, r₃, hscanFrom, (hconcludes.expect hexpect).earlier hlog⟩

theorem scan_failed {e : RunError}
    (h : (sc.scanFrom sc.settings.maxSteps r.document.root).on { r with log := .started :: r.log } = (.error e, r')) :
    sc.scan.on r = (.error e, r') := by
  rw [scan, on_bind_ok (on_log _ r), on_bind_ok (on_document _)]
  exact on_bind_error h

theorem scan_finished
    (h : (sc.scanFrom sc.settings.maxSteps r.document.root).on { r with log := .started :: r.log } = (.ok (), r')) :
    sc.scan.on r = (.ok r'.report, { r' with
      log := .completed r'.report.executed r'.report.ignored r'.report.findings.length :: r'.log }) := by
  rw [scan, on_bind_ok (on_log _ r), on_bind_ok (on_document _)]
  exact on_bind_ok h

end Scanner

/-! ### Texts -/

namespace Document.Shows

variable {page : List Paragraph} {b : Paragraph} {l : Leaf}

theorem inlineText_leaf (h : d.Shows page) (hb : b ∈ page) (hl : l ∈ b.leaves) (n : ℕ) :
    d.inlineText n l.id = l.content.shown := by
  have hnode := h.node?_leaf hb hl
  rw [inlineText.eq_def]
  dsimp only
  rw [hnode]
  cases l.content <;> rfl

theorem textLines (h : d.Shows page) : d.textLines = page.map Paragraph.text := by
  rw [Document.textLines, h.children_root, List.map_map]
  refine List.map_congr_left fun b hb ↦ ?_
  obtain ⟨n, hn⟩ : ∃ n, d.size = n + 1 := ⟨d.size - 1, by have := h.two_le_size hb; omega⟩
  rw [Function.comp_apply, hn, inlineText.eq_def]
  dsimp only
  rw [(h.blocks b hb).node]
  dsimp only
  rw [if_neg (by decide), List.map_map, Paragraph.text, Content.line, List.map_map]
  exact congrArg String.join (List.map_congr_left fun l hl ↦ h.inlineText_leaf hb hl n)

end Document.Shows

namespace Renderer

open Run

section Scan

variable (R : Renderer) (hs : R.registry = .builtin) (ht : R.settings.delimiters.Visible)
  (hm : (R.scanner (.ofDelimiters R.settings.delimiters)).Follows m) (w : Workshop) (template : String) (M : Model)

def draft : Draft :=
  ⟨.between [] ((Text.lines template.toList).map R.settings.delimiters.pieces), ⟨M, R.aliases, w.services⟩, .empty⟩

include hs ht hm

/-- A text is rendered as its sheet is scanned, unless a command is met that the manual leaves out. -/
theorem renderText_scan :
    (∃ x, Draft.scan (R.scanner (.ofDelimiters R.settings.delimiters)) m R.settings.maxSteps (R.draft w template M) = some x ∧
      (R.renderText w template M).result = x.map Draft.report ∧ ∀ D, x = .ok D →
        (R.renderText w template M).state.document.textLines = D.sheet.lines R.settings.delimiters ∧
          (R.renderText w template M).state.desk = D.desk) ∨
    Draft.scan (R.scanner (.ofDelimiters R.settings.delimiters)) m R.settings.maxSteps (R.draft w template M) = none ∧
      ∀ report, (R.renderText w template M).result = .ok report → m.Strays (R.renderText w template M).state.log := by
  obtain ⟨page, hshows, hcontents⟩ := Document.shows_ofText w.nextSerial template
  rw [draft, ← Document.lines_ofText hcontents]
  let sc := R.scanner (.ofDelimiters R.settings.delimiters)
  let r₀ : RunState := R.start { w with nextSerial := w.nextSerial + 1 } (Document.ofText w.nextSerial template) M
  let r : RunState := { r₀ with log := .started :: r₀.log }
  have hroot : ∃ result r₁, (Run.search (.ofDelimiters R.settings.delimiters) r.document.root).on r = (.ok result, r₁) ∧
      r.Keeps r₁ ∧ (Galley.between [] page).Finds R.settings.delimiters r.document r₁.document result := by
    obtain ⟨e, split?, result, hsearch, hfound, hgrows⟩ := hshows.search_root (t := R.settings.delimiters)
    obtain ⟨r₁, hon, hdoc, hkeeps⟩ := Run.search_on (r := r) hsearch hgrows
    exact ⟨result, r₁, hon, hkeeps, hdoc ▸ Galley.finds_below hfound⟩
  obtain ⟨result, r', hon, hconcludes⟩ :=
    Scanner.scanFrom_on (show sc.registry = .builtin from hs) rfl hm R.settings.maxSteps r (.between [] page) _ hshows hroot
  have hrun : R.renderText w template M = ⟨(sc.scan.on r₀).1, (sc.scan.on r₀).2⟩ := rfl
  cases hconcludes with
  | failed hfailed =>
    rw [hrun, Scanner.scan_failed hon]
    cases hx : Draft.scan sc m R.settings.maxSteps ⟨(Galley.between [] page).sheet R.settings.delimiters, r.desk, r.report⟩ with
    | none => exact .inr ⟨hx, fun report h ↦ by cases h⟩
    | some x =>
      obtain rfl := hfailed ht x hx
      exact .inl ⟨_, hx, rfl, fun D hD ↦ by cases hD⟩
  | finished hshows' _ hexact =>
    rw [hrun, Scanner.scan_finished hon]
    rcases hexact ht with hx | ⟨hx, name, hname, id, hmem⟩
    · refine .inl ⟨_, hx, rfl, fun D hD ↦ ?_⟩
      obtain rfl := Except.ok.inj hD
      exact ⟨hshows'.textLines, rfl⟩
    · exact .inr ⟨hx, fun _ _ ↦ ⟨name, hname, id, List.mem_cons_of_mem _ hmem⟩⟩

/-- What is expected on the sheet of a text is what its rendering comes to. -/
theorem renderText_lines {x : Except RunError Draft}
    (hx : Draft.scan (R.scanner (.ofDelimiters R.settings.delimiters)) m R.settings.maxSteps (R.draft w template M) = some x) :
    (R.renderText w template M).result = x.map Draft.report ∧ ∀ D, x = .ok D →
      (R.renderText w template M).state.document.textLines = D.sheet.lines R.settings.delimiters ∧
        (R.renderText w template M).state.desk = D.desk := by
  rcases R.renderText_scan hs ht hm w template M with ⟨y, hy, h⟩ | ⟨hnone, _⟩
  · obtain rfl := Option.some.inj (hx.symm.trans hy)
    exact h
  · rw [hx] at hnone
    cases hnone

theorem renderText_on {x : Except RunError Draft}
    (hx : Draft.scan (R.scanner (.ofDelimiters R.settings.delimiters)) m R.settings.maxSteps (R.draft w template M) = some x) :
    (R.renderText w template M).result = x.map Draft.report ∧ ∀ D, x = .ok D →
      (R.renderText w template M).text = "\n".intercalate (D.sheet.lines R.settings.delimiters) ∧
        (R.renderText w template M).state.desk = D.desk := by
  obtain ⟨hresult, hend⟩ := R.renderText_lines hs ht hm w template M hx
  exact ⟨hresult, fun D hD ↦ (hend D hD).imp_left (congrArg ("\n".intercalate ·))⟩

end Scan

def plain : Renderer := ⟨.default, .builtin, [], .empty, ⟨⟨0, 1⟩, .midnight⟩⟩

end Renderer

end Stencil
