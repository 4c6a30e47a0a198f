import Stencil.Proofs.Document.Placeholder
import Stencil.Proofs.Run.Step
import Stencil.Proofs.Sheet.Basic
/-!
Searches within a run. A search cuts markers out of texts and changes nothing else: the leaves that
it passes hold the pieces that were there before.
-/

namespace Stencil

/-- What the commands of a run work with apart from its document. -/
structure Desk where
  model : Model
  aliases : Aliases
  services : Services

def RunState.desk (r : RunState) : Desk := ⟨r.model, r.aliases, r.services⟩

def Event.merges : Event → Bool
  | imported n => decide (0 < n)
  | _ => false

namespace RunState

/-- A later state of a run, up to which nothing was reported and no blocks were merged into the
document. -/
structure Leads (r r' : RunState) : Prop where
  log : ∃ new, r'.log = new ++ r.log ∧ ∀ e ∈ new, e.merges = false
  grows : r.document.Grows r'.document
  report : r'.report = r.report

/-- A later state of a run, up to which nothing but the document was changed. -/
structure Keeps (r r' : RunState) : Prop extends Leads r r' where
  desk : r'.desk = r.desk

theorem Leads.refl (r : RunState) : r.Leads r := ⟨⟨[], rfl, by simp⟩, .refl _, rfl⟩

theorem Leads.trans {r r' r'' : RunState} (h : r.Leads r') (k : r'.Leads r'') : r.Leads r'' := by
  obtain ⟨new, hnew, hmerges⟩ := h.log
  obtain ⟨new', hnew', hmerges'⟩ := k.log
  refine ⟨⟨new' ++ new, by rw [hnew', hnew, List.append_assoc], fun e he ↦ ?_⟩, h.grows.trans k.grows, k.report.trans h.report⟩
  rcases List.mem_append.1 he with he | he
  · exact hmerges' e he
  · exact hmerges e he

theorem Keeps.refl (r : RunState) : r.Keeps r := ⟨.refl r, rfl⟩

theorem Keeps.trans {r r' r'' : RunState} (h : r.Keeps r') (k : r'.Keeps r'') : r.Keeps r'' :=
  ⟨h.toLeads.trans k.toLeads, k.desk.trans h.desk⟩

theorem Keeps.aliases {r r' : RunState} (h : r.Keeps r') : r'.aliases = r.aliases :=
  congrArg Desk.aliases h.desk

theorem Keeps.model {r r' : RunState} (h : r.Keeps r') : r'.model = r.model :=
  congrArg Desk.model h.desk

theorem keeps_document {r : RunState} {d : Document} (h : r.document.Grows d) :
    r.Keeps { r with document := d } := ⟨⟨⟨[], rfl, by simp⟩, h, rfl⟩, rfl⟩

theorem keeps_log {r : RunState} {e : Event} (h : e.merges = false) : r.Keeps { r with log := e :: r.log } :=
  ⟨⟨⟨[e], rfl, by simpa using h⟩, .refl _, rfl⟩, rfl⟩

end RunState

variable {t : Delimiters} {d e : Document} {above below : List Paragraph} {bid : NodeId} {left right : List Leaf}

/-! ### Leaves cut anew -/

/-- Leaves that stand for others after markers were cut out of them. -/
structure Recut (t : Delimiters) (d : Document) (old new : List Leaf) : Prop where
  ids : ∀ id ∈ new.map Leaf.id, id ∈ old.map Leaf.id ∨ d.node? id = none
  pieces : t.Proper → Leaf.piecesOf t new = Leaf.piecesOf t old

def RecutAll (t : Delimiters) (d : Document) (old new : List Paragraph) : Prop :=
  List.Forall₂ (fun b c ↦ c.id = b.id ∧ Recut t d b.leaves c.leaves) old new

/-- Leaves of a piece each. -/
def Settled (t : Delimiters) (ls : List Leaf) : Prop :=
  t.Proper → (Leaf.piecesOf t ls).map (Piece.content t) = ls.map Leaf.content

def Paragraph.line (t : Delimiters) (b : Paragraph) : Line := Leaf.piecesOf t b.leaves

def SettledAll (t : Delimiters) (bs : List Paragraph) : Prop := ∀ b ∈ bs, Settled t b.leaves

namespace Recut

variable {a b c x y : List Leaf}

theorem refl (t : Delimiters) (d : Document) (ls : List Leaf) : Recut t d ls ls := ⟨fun _ h ↦ .inl h, fun _ ↦ rfl⟩

theorem trans (h : Recut t d a b) (hgrows : d.Grows e) (k : Recut t e b c) : Recut t d a c where
  ids id hid := by
    rcases k.ids id hid with hid | hid
    · exact h.ids id hid
    · exact .inr (hgrows.unknown hid)
  pieces ht := (k.pieces ht).trans (h.pieces ht)

theorem append (h : Recut t d a b) (k : Recut t d x y) : Recut t d (a ++ x) (b ++ y) where
  ids id hid := by
    rw [List.map_append, List.mem_append] at hid ⊢
    rcases hid with hid | hid
    · exact (h.ids id hid).imp_left .inl
    · exact (k.ids id hid).imp_left .inr
  pieces ht := by rw [Leaf.piecesOf_append, Leaf.piecesOf_append, h.pieces ht, k.pieces ht]

theorem of_cutout {payload : List Char} {m : Leaf} (h : Cutout t d a payload b m c) : Recut t d a (b ++ m :: c) where
  ids := h.ids
  pieces ht := by
    rw [h.pieces ht, Leaf.piecesOf_append, Leaf.piecesOf_cons, h.mark ht]
    rfl

end Recut

namespace RecutAll

variable {a b c x y : List Paragraph}

theorem refl (t : Delimiters) (d : Document) (bs : List Paragraph) : RecutAll t d bs bs := by
  induction bs with
  | nil => exact .nil
  | cons b bs ih => exact .cons ⟨rfl, .refl t d _⟩ ih

theorem trans (h : RecutAll t d a b) (hgrows : d.Grows e) (k : RecutAll t e b c) : RecutAll t d a c := by
  induction h generalizing c with
  | nil =>
    cases k
    exact .nil
  | cons hab _ ih =>
    cases k with
    | cons hbc hrest => exact .cons ⟨hbc.1.trans hab.1, hab.2.trans hgrows hbc.2⟩ (ih hrest)

theorem append (h : RecutAll t d a b) (k : RecutAll t d x y) : RecutAll t d (a ++ x) (b ++ y) :=
  List.rel_append h k

theorem ids (h : RecutAll t d a b) : ∀ id ∈ b.flatMap Paragraph.ids, id ∈ a.flatMap Paragraph.ids ∨ d.node? id = none := by
  induction h with
  | nil => simp
  | @cons b c bs cs hbc _ ih =>
    intro id hid
    rw [List.flatMap_cons, List.mem_append] at hid ⊢
    rcases hid with hid | hid
    · rcases List.mem_cons.1 hid with rfl | hid
      · exact .inl (.inl (hbc.1 ▸ List.mem_cons_self ..))
      · exact (hbc.2.ids id hid).imp_left fun h ↦ .inl (List.mem_cons_of_mem _ h)
    · exact (ih id hid).imp_left .inr

theorem lines (h : RecutAll t d a b) (ht : t.Proper) : b.map (Paragraph.line t) = a.map (Paragraph.line t) := by
  induction h with
  | nil => rfl
  | cons hbc _ ih => rw [List.map_cons, List.map_cons, ih, Paragraph.line, Paragraph.line, hbc.2.pieces ht]

end RecutAll

/-! ### Leaves of a piece each -/

theorem Settled.append {a b : List Leaf} (h : Settled t a) (k : Settled t b) : Settled t (a ++ b) := fun ht ↦ by
  rw [Leaf.piecesOf_append, List.map_append, List.map_append, h ht, k ht]

theorem pieces_of_uncut {c : Content} (h : c.cut? t = none) :
    ∃ q, c.pieces t = [q] ∧ q.content t = c ∧ q.isMarker = false := by
  cases c with
  | text s => exact ⟨_, Delimiters.pieces_words h, by simp [Piece.content], rfl⟩
  | image attrs => exact ⟨_, rfl, rfl, rfl⟩

theorem settled_of_uncut {ls : List Leaf} (h : t.Proper → ∀ l ∈ ls, l.content.cut? t = none) : Settled t ls :=
  fun ht ↦ by
    induction ls with
    | nil => rfl
    | cons l ls ih =>
      obtain ⟨q, hq, hcontent, _⟩ := pieces_of_uncut (h ht l (List.mem_cons_self ..))
      rw [Leaf.piecesOf_cons, hq, List.singleton_append, List.map_cons, hcontent, List.map_cons,
        ih fun ht x hx ↦ h ht x (List.mem_cons_of_mem _ hx)]

theorem words_of_uncut {ls : List Leaf} (h : ∀ l ∈ ls, l.content.cut? t = none) :
    ∀ q ∈ Leaf.piecesOf t ls, q.isMarker = false := by
  intro q hq
  obtain ⟨l, hl, hq⟩ := List.mem_flatMap.1 hq
  obtain ⟨q', hq', _, hmarker⟩ := pieces_of_uncut (h l hl)
  rw [hq'] at hq
  rwa [List.mem_singleton.1 hq]

theorem words_of_uncut_all {bs : List Paragraph} (h : ∀ b ∈ bs, ∀ l ∈ b.leaves, l.content.cut? t = none) :
    ∀ l ∈ bs.map (Paragraph.line t), ∀ q ∈ l, q.isMarker = false := by
  intro l hl
  obtain ⟨b, hb, rfl⟩ := List.mem_map.1 hl
  exact words_of_uncut (h b hb)

theorem Cutout.settled {old front back : List Leaf} {payload : List Char} {m : Leaf}
    (h : Cutout t d old payload front m back) : Settled t (front ++ [m]) := by
  refine (settled_of_uncut h.words).append fun ht ↦ ?_
  rw [Leaf.piecesOf, List.flatMap_singleton, h.mark ht, List.map_singleton, List.map_singleton, h.content]
  rfl

/-! ### Searches -/

theorem Run.search_on {r : RunState} {id : NodeId} {split? : Option (NodeId × String)} {result : Option NodeId}
    (h : r.document.search t id = ⟨e, split?, .ok result⟩) (hgrows : r.document.Grows e) :
    ∃ r', (Run.search (Toolkit.ofDelimiters t) id).on r = (.ok result, r') ∧ r'.document = e ∧ r.Keeps r' := by
  have hstart : r.Keeps { r with document := e, searches := r.searches + 1 } :=
    ⟨⟨⟨[], rfl, by simp⟩, hgrows, rfl⟩, rfl⟩
  have hsearch : (Toolkit.ofDelimiters t).search (r.searches + 1) r.document id = ⟨e, split?, .ok result⟩ := h
  rw [Run.search, Run.on_bind_ok (Run.on_get r)]
  simp only [hsearch]
  rw [Run.on_bind_ok (Run.on_set _ _)]
  cases split? with
  | none => exact ⟨_, rfl, rfl, hstart⟩
  | some nm =>
    exact ⟨{ r with document := e, searches := r.searches + 1, log := .splittingText nm.1 nm.2 :: r.log }, rfl, rfl,
      hstart.trans (RunState.keeps_log (e := .splittingText nm.1 nm.2) rfl)⟩

/-- What the search for a closing marker from within a block comes to, and where the marker stands. -/
inductive Sought (t : Delimiters) (d e : Document) (above : List Paragraph) (bid : NodeId) (left right : List Leaf)
    (below : List Paragraph) : Option NodeId → Option Reach → Prop where
  | nothing {right' : List Leaf} {below' : List Paragraph} :
      e.Shows (above ++ ⟨bid, left ++ right'⟩ :: below') → Recut t d right right' → RecutAll t d below below' →
      Sought t d e above bid left right below none none
  | here {mid rest : List Leaf} {c : Leaf} {s : String} :
      e.Shows (above ++ ⟨bid, left ++ (mid ++ c :: rest)⟩ :: below) → c.content = .text s →
      Recut t d right (mid ++ c :: rest) → Settled t mid →
      Sought t d e above bid left right below (some c.id)
        (some (.here (Leaf.piecesOf t mid) (Leaf.piecesOf t rest)))
  | there {first front rest : List Leaf} {mid below' : List Paragraph} {bid' : NodeId} {c : Leaf} {s : String} :
      e.Shows (above ++ ⟨bid, left ++ first⟩ :: (mid ++ ⟨bid', front ++ c :: rest⟩ :: below')) →
      c.content = .text s → Recut t d right first →
      RecutAll t d below (mid ++ ⟨bid', front ++ c :: rest⟩ :: below') → Settled t first → SettledAll t mid →
      Settled t front →
      Sought t d e above bid left right below (some c.id)
        (some (.there (Leaf.piecesOf t first) (mid.map (Paragraph.line t)) (Leaf.piecesOf t front)
          (Leaf.piecesOf t rest) (below'.map (Paragraph.line t))))

namespace Sought

variable {f : Document} {payload : List Char} {front back : List Leaf} {m : Leaf} {result : Option NodeId}
  {reach? : Option Reach}

theorem piecesOf_cutout (h : Cutout t d right payload front m back) (ht : t.Proper) (ls : List Leaf) :
    Leaf.piecesOf t (front ++ m :: ls) = (Leaf.piecesOf t front ++ [.marker payload]) ++ Leaf.piecesOf t ls := by
  rw [Leaf.piecesOf_append, Leaf.piecesOf_cons, h.mark ht, List.append_assoc]

theorem extend (hcut : Cutout t d right payload front m back) (hgrows : d.Grows e)
    (h : Sought t e f above bid (left ++ front ++ [m]) back below result reach?) :
    ∃ whole?, Sought t d f above bid left right below result whole? ∧
      (t.Proper → whole? = reach?.map (Reach.extend (Leaf.piecesOf t front ++ [.marker payload]))) := by
  have hrecut : ∀ {ls}, Recut t e back ls → Recut t d right (front ++ m :: ls) := by
    intro ls hls
    have hwhole := (Recut.of_cutout hcut).trans hgrows (((Recut.refl t e (front ++ [m])).append hls) |> fun h ↦ by
      simpa using h)
    simpa using hwhole
  have hsettled : ∀ {ls}, Settled t ls → Settled t (front ++ m :: ls) := by
    intro ls hls
    simpa using hcut.settled.append hls
  cases h with
  | nothing hshows hright hbelow =>
    refine ⟨none, .nothing (by simpa using hshows) (hrecut hright) ?_, fun _ ↦ rfl⟩
    exact (RecutAll.refl t d below).trans hgrows hbelow
  | @here mid rest c s hshows hc hright hmid =>
    have hassoc : front ++ m :: (mid ++ c :: rest) = (front ++ m :: mid) ++ c :: rest := by simp
    have hshows' : f.Shows (above ++ ⟨bid, left ++ ((front ++ m :: mid) ++ c :: rest)⟩ :: below) := by
      simpa using hshows
    refine ⟨_, .here hshows' hc (hassoc ▸ hrecut hright) (hsettled hmid), fun ht ↦ ?_⟩
    rw [piecesOf_cutout hcut ht]
    rfl
  | @there first front' rest mid below' bid' c s hshows hc hright hbelow hfirst hmid hfront =>
    have hshows' : f.Shows (above ++ ⟨bid, left ++ (front ++ m :: first)⟩ ::
        (mid ++ ⟨bid', front' ++ c :: rest⟩ :: below')) := by
      simpa using hshows
    refine ⟨_, .there hshows' hc (hrecut hright)
      ((RecutAll.refl t d below).trans hgrows hbelow) (hsettled hfirst) hmid hfront, fun ht ↦ ?_⟩
    rw [piecesOf_cutout hcut ht]
    rfl

theorem extendBelow {mid below' : List Paragraph} {b : Paragraph} (hright : ∀ l ∈ right, l.content.cut? t = none)
    (hmid : ∀ x ∈ mid, ∀ l ∈ x.leaves, l.content.cut? t = none) (hcut : Cutout t d b.leaves payload front m back)
    (hgrows : d.Grows e)
    (h : Sought t e f (above ++ ⟨bid, left ++ right⟩ :: mid) b.id (front ++ [m]) back below' result reach?) :
    ∃ whole?, Sought t d f above bid left right (mid ++ b :: below') result whole? ∧
      (t.Proper → whole? = reach?.map (Reach.extendBelow (Leaf.piecesOf t right) (mid.map (Paragraph.line t))
        (Leaf.piecesOf t front ++ [.marker payload]) (below'.map (Paragraph.line t)))) := by
  have hrecut : ∀ {ls}, Recut t e back ls → Recut t d b.leaves (front ++ m :: ls) := by
    intro ls hls
    have hwhole := (Recut.of_cutout hcut).trans hgrows (((Recut.refl t e (front ++ [m])).append hls) |> fun h ↦ by
      simpa using h)
    simpa using hwhole
  have hrest : ∀ {bs}, RecutAll t e below' bs → RecutAll t d below' bs := fun hbs ↦
    (RecutAll.refl t d below').trans hgrows hbs
  have hsettled : ∀ {ls}, Settled t ls → Settled t (front ++ m :: ls) := by
    intro ls hls
    simpa using hcut.settled.append hls
  have hright' : Settled t right := settled_of_uncut fun _ ↦ hright
  have hmid' : SettledAll t mid := fun x hx ↦ settled_of_uncut fun _ ↦ hmid x hx
  cases h with
  | @nothing ls bs hshows hback hbelow =>
    have hshows' : f.Shows (above ++ ⟨bid, left ++ right⟩ :: (mid ++ ⟨b.id, front ++ m :: ls⟩ :: bs)) := by
      simpa using hshows
    refine ⟨none, .nothing hshows' (.refl t d right) ?_, fun _ ↦ rfl⟩
    exact (RecutAll.refl t d mid).append (.cons ⟨rfl, hrecut hback⟩ (hrest hbelow))
  | @here a rest c s hshows hc hback ha =>
    have hshows' : f.Shows (above ++ ⟨bid, left ++ right⟩ :: (mid ++ ⟨b.id, (front ++ m :: a) ++ c :: rest⟩ :: below')) := by
      simpa using hshows
    refine ⟨_, .there hshows' hc
      (.refl t d right) ((RecutAll.refl t d mid).append (.cons ⟨rfl, by simpa using hrecut hback⟩ (RecutAll.refl t d below')))
      hright' hmid' (hsettled ha), fun ht ↦ ?_⟩
    rw [piecesOf_cutout hcut ht]
    rfl
  | @there a front' rest mid' bs bid' c s hshows hc hback hbelow ha hmid'' hfront =>
    have hshows' : f.Shows (above ++ ⟨bid, left ++ right⟩ ::
        ((mid ++ ⟨b.id, front ++ m :: a⟩ :: mid') ++ ⟨bid', front' ++ c :: rest⟩ :: bs)) := by
      simpa using hshows
    refine ⟨_, .there hshows' hc (.refl t d right) ?_ hright' ?_ hfront, fun ht ↦ ?_⟩
    · have hhead : RecutAll t d (b :: below') (⟨b.id, front ++ m :: a⟩ :: (mid' ++ ⟨bid', front' ++ c :: rest⟩ :: bs)) :=
        .cons ⟨rfl, hrecut hback⟩ (hrest hbelow)
      simpa using (RecutAll.refl t d mid).append hhead
    · intro x hx
      rcases List.mem_append.1 hx with hx | hx
      · exact hmid' x hx
      · rcases List.mem_cons.1 hx with rfl | hx
        · exact hsettled ha
        · exact hmid'' x hx
    · rw [List.map_append, List.map_cons, Paragraph.line, piecesOf_cutout hcut ht]
      rfl

end Sought

def Piece.markersIn (ls : List Line) : ℕ := (ls.map Piece.markers).sum

theorem Piece.markers_append (a b : Line) : markers (a ++ b) = markers a + markers b := List.countP_append

theorem Piece.markers_words {qs : Line} (h : ∀ q ∈ qs, q.isMarker = false) : markers qs = 0 := by
  rw [markers, List.countP_eq_zero]
  intro q hq
  simp [h q hq]

theorem Cutout.markers {old front back : List Leaf} {payload : List Char} {m : Leaf}
    (h : Cutout t d old payload front m back) (ht : t.Proper) :
    Piece.markers (Leaf.piecesOf t old) = 1 + Piece.markers (Leaf.piecesOf t back) := by
  have hfront := Piece.markers_words (words_of_uncut (t := t) (h.words ht))
  have hcons : ∀ (p : List Char) (qs : Line), Piece.markers (.marker p :: qs) = Piece.markers qs + 1 := fun p qs ↦
    List.countP_cons_of_pos rfl
  rw [h.pieces ht, Piece.markers_append, hfront, hcons]
  omega

theorem Piece.markersIn_append (a b : List Line) : markersIn (a ++ b) = markersIn a + markersIn b := by
  simp [markersIn]

theorem Piece.markersIn_words {ls : List Line} (h : ∀ l ∈ ls, ∀ q ∈ l, q.isMarker = false) : markersIn ls = 0 := by
  induction ls with
  | nil => rfl
  | cons l ls ih =>
    have htail := ih fun x hx ↦ h x (List.mem_cons_of_mem _ hx)
    rw [markersIn] at htail ⊢
    rw [List.map_cons, List.sum_cons, htail, markers_words (h l (List.mem_cons_self ..))]

namespace Selection

theorem nameOf?_on {r : RunState} {page : List Paragraph} {b : Paragraph} {m : Leaf} {payload : List Char}
    (h : r.document.Shows page) (hb : b ∈ page) (hm : m ∈ b.leaves)
    (hcontent : m.content = .text (String.ofList (t.enclose payload)))
    (hread : t.Proper → t.payload? (t.enclose payload) = some payload) :
    ∃ name?, (nameOf? (Toolkit.ofDelimiters t) m.id).on r = (.ok name?, r) ∧
      (t.Proper → name? = r.aliases.nameOf? payload) := by
  refine ⟨_, by rw [nameOf?, Run.on_bind_ok (Run.on_get r), Run.on_pure], fun ht ↦ ?_⟩
  have htext : r.document.text? m.id = some (String.ofList (t.enclose payload)) := by
    rw [h.text?_leaf hb hm, hcontent]
  have hpayload : r.document.payload? (Toolkit.ofDelimiters t).delimiters m.id = some payload := by
    rw [Document.payload?, htext, Option.bind_some, String.toList_ofList]
    exact hread ht
  simp only [hpayload, Option.bind_some]
  rfl

open Document (ahead?) in
/-- The search for a closing marker. It comes to what the pieces say, provided that its bound on the
number of markers passed is not reached. -/
theorem seekEnd_on (openers : List String) (closer : String) : ∀ (n : ℕ) (nesting : Nesting) (r : RunState)
    (above : List Paragraph) (bid : NodeId) (left right : List Leaf) (below : List Paragraph),
    r.document.Shows (above ++ ⟨bid, left ++ right⟩ :: below) →
    ∃ result reach? r', (seekEnd (Toolkit.ofDelimiters t) openers closer n nesting (ahead? right below)).on r =
        (.ok result, r') ∧ r.Keeps r' ∧
      Sought t r.document r'.document above bid left right below result reach? ∧
      (t.Proper → Piece.markers (Leaf.piecesOf t right) + Piece.markersIn (below.map (Paragraph.line t)) < n →
        reach? = Reach.seek? r.aliases openers closer nesting (Leaf.piecesOf t right)
          (below.map (Paragraph.line t))) := by
  intro n
  induction n with
  | zero =>
    intro nesting r above bid left right below h
    exact ⟨none, none, r, rfl, .refl r, .nothing h (.refl t _ right) (.refl t _ below), fun _ hlt ↦ by omega⟩
  | succ n ih =>
    intro nesting r above bid left right below h
    cases hstart : ahead? right below with
    | none =>
      obtain ⟨rfl, rfl⟩ : right = [] ∧ below = [] := by
        cases right <;> cases below <;> simp [ahead?] at hstart ⊢
      refine ⟨none, none, r, rfl, .refl r, .nothing h (.refl t _ []) (.refl t _ []), fun _ _ ↦ ?_⟩
      exact (Reach.seek?_words (by simp [Leaf.piecesOf]) (by simp)).symm
    | some id =>
    obtain ⟨e, split?, result, hsearch, hfound, hgrows⟩ := h.search_within (t := t) hstart
    obtain ⟨r₁, hon, hdoc, hkeeps⟩ := Run.search_on hsearch hgrows
    simp only [seekEnd]
    rw [Run.on_bind_ok hon]
    have halias := hkeeps.aliases
    cases hfound with
    | @here payload front back m hshows hcut =>
      have hmem : (⟨bid, left ++ (front ++ m :: back)⟩ : Paragraph) ∈
        above ++ ⟨bid, left ++ (front ++ m :: back)⟩ :: below := by simp
      have hshows₁ : r₁.document.Shows (above ++ ⟨bid, left ++ (front ++ m :: back)⟩ :: below) := hdoc ▸ hshows
      obtain ⟨name?, hname, hproper⟩ := nameOf?_on hshows₁ hmem (m := m) (by simp) hcut.content hcut.read
      dsimp only
      rw [Run.on_bind_ok hname]
      cases hcloses : nesting.closes closer name? with
      | true =>
        refine ⟨some m.id, some (.here (Leaf.piecesOf t front) (Leaf.piecesOf t back)), r₁, ?_, hkeeps,
          .here hshows₁ hcut.content (.of_cutout hcut) (settled_of_uncut hcut.words), fun ht _ ↦ ?_⟩
        · rw [if_pos rfl, Run.on_pure]
        · rw [hproper ht, halias] at hcloses
          rw [hcut.pieces ht, Reach.seek?_closes (words_of_uncut (hcut.words ht)) _ hcloses]
      | false =>
        have hnext : r₁.document.nextAfter? m.id = ahead? back below := by
          have h' : r₁.document.Shows (above ++ ⟨bid, (left ++ front) ++ m :: back⟩ :: below) := by simpa using hshows₁
          exact h'.nextAfter?_leaf
        have hshows₂ : r₁.document.Shows (above ++ ⟨bid, (left ++ front ++ [m]) ++ back⟩ :: below) := by
          simpa using hshows₁
        obtain ⟨result', reach?, r₂, hon₂, hkeeps₂, hsought, hexact⟩ :=
          ih (nesting.pass openers closer name?) r₁ above bid (left ++ front ++ [m]) back below hshows₂
        obtain ⟨whole?, hwhole, heq⟩ := hsought.extend hcut (hdoc ▸ hgrows)
        refine ⟨result', whole?, r₂, ?_, hkeeps.trans hkeeps₂, hwhole, fun ht hlt ↦ ?_⟩
        · rw [if_neg (by simp), Run.on_bind_ok (Run.on_document _), hnext, hon₂]
        · rw [hcut.markers ht] at hlt
          rw [hproper ht, halias] at hcloses
          rw [heq ht, hexact ht (by omega), hproper ht, halias, hcut.pieces ht,
            Reach.seek?_passes (words_of_uncut (hcut.words ht)) _ hcloses]
    | further hright hbelow =>
      have hwords := words_of_uncut (t := t) hright
      cases hbelow with
      | nothing heq hnone =>
        have hsame : r₁.document = r.document := hdoc.trans heq
        refine ⟨none, none, r₁, rfl, hkeeps, .nothing (hsame ▸ h) (.refl t _ right) (.refl t _ below), fun ht _ ↦ ?_⟩
        exact (Reach.seek?_words hwords (words_of_uncut_all hnone)).symm
      | @marker payload front back m mid below' b hsplit hmid hshows hcut =>
        subst hsplit
        have hshows₁ : r₁.document.Shows
            ((above ++ ⟨bid, left ++ right⟩ :: mid) ++ ⟨b.id, front ++ m :: back⟩ :: below') := by
          rw [hdoc]
          simpa using hshows
        obtain ⟨name?, hname, hproper⟩ := nameOf?_on hshows₁ (b := ⟨b.id, front ++ m :: back⟩) (m := m) (by simp)
          (by simp) hcut.content hcut.read
        have hwordsmid := words_of_uncut_all (t := t) hmid
        have hline : (mid ++ b :: below').map (Paragraph.line t) =
            mid.map (Paragraph.line t) ++ Leaf.piecesOf t b.leaves :: below'.map (Paragraph.line t) := by
          rw [List.map_append, List.map_cons, Paragraph.line]
        dsimp only
        rw [Run.on_bind_ok hname]
        cases hcloses : nesting.closes closer name? with
        | true =>
          refine ⟨some m.id, some (.there (Leaf.piecesOf t right) (mid.map (Paragraph.line t)) (Leaf.piecesOf t front)
            (Leaf.piecesOf t back) (below'.map (Paragraph.line t))), r₁, ?_, hkeeps,
            .there (by simpa using hshows₁) hcut.content (.refl t _ right) ?_ (settled_of_uncut fun _ ↦ hright)
              (fun x hx ↦ settled_of_uncut fun _ ↦ hmid x hx) (settled_of_uncut hcut.words), fun ht _ ↦ ?_⟩
          · rw [if_pos rfl, Run.on_pure]
          · exact (RecutAll.refl t _ mid).append (.cons ⟨rfl, .of_cutout hcut⟩ (RecutAll.refl t _ below'))
          · rw [hproper ht, halias] at hcloses
            rw [hline, hcut.pieces ht, Reach.seek?_below_closes (words_of_uncut (hcut.words ht)) _ hwords hwordsmid _
              hcloses]
        | false =>
          have hnext : r₁.document.nextAfter? m.id = ahead? back below' := hshows₁.nextAfter?_leaf
          have hshows₂ : r₁.document.Shows
              ((above ++ ⟨bid, left ++ right⟩ :: mid) ++ ⟨b.id, (front ++ [m]) ++ back⟩ :: below') := by
            simpa using hshows₁
          obtain ⟨result', reach?, r₂, hon₂, hkeeps₂, hsought, hexact⟩ := ih (nesting.pass openers closer name?) r₁
            (above ++ ⟨bid, left ++ right⟩ :: mid) b.id (front ++ [m]) back below' hshows₂
          obtain ⟨whole?, hwhole, heq⟩ := hsought.extendBelow hright hmid hcut (hdoc ▸ hgrows)
          refine ⟨result', whole?, r₂, ?_, hkeeps.trans hkeeps₂, hwhole, fun ht hlt ↦ ?_⟩
          · rw [if_neg (by simp), Run.on_bind_ok (Run.on_document _), hnext, hon₂]
          · have hcount : Piece.markersIn ((mid ++ b :: below').map (Paragraph.line t)) =
                1 + Piece.markers (Leaf.piecesOf t back) + Piece.markersIn (below'.map (Paragraph.line t)) := by
              rw [hline, Piece.markersIn_append, Piece.markersIn_words hwordsmid, Piece.markersIn, List.map_cons,
                List.sum_cons, hcut.markers ht, Piece.markersIn]
              omega
            rw [hcount] at hlt
            rw [hproper ht, halias] at hcloses
            rw [heq ht, hexact ht (by omega), hproper ht, halias, hline, hcut.pieces ht,
              Reach.seek?_below_passes (words_of_uncut (hcut.words ht)) _ hwords hwordsmid _ hcloses]

end Selection

end Stencil
