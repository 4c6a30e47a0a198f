import Stencil.Proofs.Payload.Endings
import Stencil.Proofs.Run.Closing
/-!
The markers ahead of a place in a document. Searches that go on behind what each of them found meet
these markers one after another, and so does the search for a closing marker, which therefore depends
on their payloads alone.
-/

namespace Stencil

variable {t : Delimiters} {d e : Document} {r : RunState}

/-! ### Payloads of pages -/

theorem Piece.payload?_of_isMarker {q : Piece} (h : q.isMarker = false) : q.payload? = none := by
  cases q with
  | marker => contradiction
  | words => rfl
  | image => rfl

theorem Piece.length_payloads (qs : List Piece) : (payloads qs).length = markers qs := by
  induction qs with
  | nil => rfl
  | cons q qs ih =>
    rw [markers] at ih ⊢
    cases q with
    | marker p => rw [payloads_marker, List.length_cons, ih, List.countP_cons_of_pos rfl]
    | words s => rw [List.countP_cons_of_neg (by simp [isMarker]), ← ih]; rfl
    | image a => rw [List.countP_cons_of_neg (by simp [isMarker]), ← ih]; rfl

theorem Piece.payloads_of_words {qs : List Piece} (h : ∀ q ∈ qs, q.isMarker = false) : payloads qs = [] :=
  payloads_words fun q hq ↦ payload?_of_isMarker (h q hq)

def Paragraph.payloadsOf (t : Delimiters) (bs : List Paragraph) : List (List Char) :=
  (bs.map (Paragraph.line t)).flatMap Piece.payloads

theorem Paragraph.payloadsOf_cons (b : Paragraph) (bs : List Paragraph) :
    payloadsOf t (b :: bs) = Piece.payloads (b.line t) ++ payloadsOf t bs := rfl

theorem Paragraph.payloadsOf_words {bs : List Paragraph} (h : ∀ b ∈ bs, ∀ l ∈ b.leaves, l.content.cut? t = none) :
    payloadsOf t bs = [] := by
  rw [payloadsOf, List.flatMap_eq_nil_iff]
  exact fun l hl ↦ Piece.payloads_of_words (words_of_uncut_all h l hl)

theorem Cutout.payloads {old front back : List Leaf} {payload : List Char} {m : Leaf}
    (h : Cutout t d old payload front m back) (ht : t.Proper) :
    Piece.payloads (Leaf.piecesOf t old) = payload :: Piece.payloads (Leaf.piecesOf t back) := by
  rw [h.pieces ht, Piece.payloads_append, Piece.payloads_of_words (words_of_uncut (h.words ht)), Piece.payloads_marker]
  rfl

/-! ### Markers ahead -/

namespace Document

/-- The payloads of the markers from a node on: the root, or a place in a block. -/
inductive Ahead (t : Delimiters) (d : Document) : Option NodeId → List (List Char) → Prop where
  | root {page : List Paragraph} : d.Shows page → Ahead t d (some d.root) (Paragraph.payloadsOf t page)
  | within {above below : List Paragraph} {bid : NodeId} {left right : List Leaf} :
      d.Shows (above ++ ⟨bid, left ++ right⟩ :: below) →
      Ahead t d (ahead? right below) (Piece.payloads (Leaf.piecesOf t right) ++ Paragraph.payloadsOf t below)

namespace Ahead

theorem behind {above below : List Paragraph} {bid : NodeId} {left right : List Leaf} {m : Leaf}
    (h : d.Shows (above ++ ⟨bid, left ++ m :: right⟩ :: below)) :
    Ahead t d (d.nextAfter? m.id) (Piece.payloads (Leaf.piecesOf t right) ++ Paragraph.payloadsOf t below) := by
  have hnext : d.nextAfter? m.id = ahead? right below := h.nextAfter?_leaf
  rw [hnext]
  exact .within (show d.Shows (above ++ ⟨bid, (left ++ [m]) ++ right⟩ :: below) by simpa using h)

/-- Fewer markers are ahead than the bound of a search for a closing marker. -/
theorem length_lt {start? : Option NodeId} {ps : List (List Char)} (h : Ahead t d start? ps) (ht : t.Proper) :
    ps.length < Selection.placeholderBound d := by
  have hpage : ∀ bs : List Paragraph, (Paragraph.payloadsOf t bs).length = Piece.markersIn (bs.map (Paragraph.line t)) := by
    intro bs
    induction bs with
    | nil => rfl
    | cons b bs ih =>
      rw [Paragraph.payloadsOf_cons, List.length_append, ih, Piece.length_payloads, List.map_cons]
      rfl
  cases h with
  | root hshows => exact hpage _ ▸ hshows.markers_lt ht
  | @within above below bid left right hshows =>
    have hlt := hshows.markers_lt ht
    rw [← hpage] at hlt
    rw [Paragraph.payloadsOf, List.map_append, List.flatMap_append, List.map_cons, List.flatMap_cons, Paragraph.line,
      Leaf.piecesOf_append, Piece.payloads_append] at hlt
    simp only [List.length_append] at hlt ⊢
    rw [Paragraph.payloadsOf]
    omega

/-- What one search comes to: nothing when no marker is ahead, else the first of them, which is then a
leaf of its own. -/
inductive Met (t : Delimiters) (e : Document) : List (List Char) → Option NodeId → Prop where
  | nothing : Met t e [] none
  | marker {p : List Char} {ps : List (List Char)} {m : NodeId} : e.text? m = some (String.ofList (t.enclose p)) →
      t.payload? (t.enclose p) = some p → Ahead t e (e.nextAfter? m) ps → Met t e (p :: ps) (some m)

theorem met_below {above below : List Paragraph} {result : Option NodeId} (ht : t.Proper)
    (h : FoundBelow t d e above below result) : Met t e (Paragraph.payloadsOf t below) result := by
  cases h with
  | nothing _ hwords =>
    rw [Paragraph.payloadsOf_words hwords]
    exact .nothing
  | @marker p front back m mid below' b hsplit hmid hshows hcut =>
    have hb : (⟨b.id, front ++ m :: back⟩ : Paragraph) ∈ above ++ mid ++ ⟨b.id, front ++ m :: back⟩ :: below' := by simp
    have hpayloads : Paragraph.payloadsOf t below =
        p :: (Piece.payloads (Leaf.piecesOf t back) ++ Paragraph.payloadsOf t below') := by
      have hmid' : Paragraph.payloadsOf t mid = [] := Paragraph.payloadsOf_words hmid
      rw [Paragraph.payloadsOf] at hmid'
      rw [hsplit, Paragraph.payloadsOf, List.map_append, List.flatMap_append, hmid', List.nil_append, List.map_cons,
        List.flatMap_cons, Paragraph.line, hcut.payloads ht, List.cons_append]
      rfl
    rw [hpayloads]
    refine .marker ?_ (hcut.read ht) (.behind hshows)
    rw [hshows.text?_leaf hb (by simp), hcut.content]

theorem met_within {above below : List Paragraph} {bid : NodeId} {left right : List Leaf} {result : Option NodeId}
    (ht : t.Proper) (h : Found t d e above bid left right below result) :
    Met t e (Piece.payloads (Leaf.piecesOf t right) ++ Paragraph.payloadsOf t below) result := by
  cases h with
  | @here p front back m hshows hcut =>
    have hb : (⟨bid, left ++ (front ++ m :: back)⟩ : Paragraph) ∈ above ++ ⟨bid, left ++ (front ++ m :: back)⟩ :: below := by
      simp
    rw [hcut.payloads ht, List.cons_append]
    have hshows' : e.Shows (above ++ ⟨bid, (left ++ front) ++ m :: back⟩ :: below) := by simpa using hshows
    refine .marker ?_ (hcut.read ht) (.behind hshows')
    rw [hshows.text?_leaf hb (l := m) (by simp), hcut.content]
  | further hwords hbelow =>
    rw [Piece.payloads_of_words (words_of_uncut hwords)]
    exact met_below ht hbelow

/-- A search from a place meets the first marker ahead of it. -/
theorem search {id : NodeId} {ps : List (List Char)} (h : Ahead t r.document (some id) ps) (ht : t.Proper) :
    ∃ result r', (Run.search (.ofDelimiters t) id).on r = (.ok result, r') ∧ r.Keeps r' ∧ Met t r'.document ps result := by
  generalize hstart : some id = start? at h
  cases h with
  | root hshows =>
    obtain rfl := Option.some.inj hstart
    obtain ⟨e, split?, result, hsearch, hfound, hgrows⟩ := hshows.search_root (t := t)
    obtain ⟨r', hon, hdoc, hkeeps⟩ := Run.search_on hsearch hgrows
    exact ⟨result, r', hon, hkeeps, hdoc ▸ met_below ht hfound⟩
  | within hshows =>
    obtain ⟨e, split?, result, hsearch, hfound, hgrows⟩ := hshows.search_within (t := t) hstart.symm
    obtain ⟨r', hon, hdoc, hkeeps⟩ := Run.search_on hsearch hgrows
    exact ⟨result, r', hon, hkeeps, hdoc ▸ met_within ht hfound⟩

theorem eq_nil {ps : List (List Char)} (h : Ahead t d none ps) : ps = [] := by
  generalize hstart : (none : Option NodeId) = start? at h
  cases h with
  | root => contradiction
  | @within _ below _ _ right _ =>
    obtain ⟨rfl, rfl⟩ : right = [] ∧ below = [] := by
      cases right <;> cases below <;> simp [ahead?] at hstart ⊢
    rfl

end Ahead

end Document

/-! ### Searches one after another -/

/-- The placeholder that searches meet after `k` others, from a place on, when each goes on behind the
placeholder that the one before it found. -/
def Run.meet (t : Toolkit) : ℕ → Option NodeId → Run (Option NodeId)
  | _, none => pure none
  | k, some id => do
    match ← Run.search t id with
    | none => pure none
    | some found => match k with
      | 0 => pure (some found)
      | k + 1 => do
        let d ← Run.document
        meet t k (d.nextAfter? found)

namespace Document.Ahead

/-- Searches meet the markers ahead in their order. -/
theorem meet {k : ℕ} {start? : Option NodeId} {ps : List (List Char)} {p : List Char}
    (h : Ahead t r.document start? ps) (ht : t.Proper) (hp : ps[k]? = some p) :
    ∃ m r', (Run.meet (.ofDelimiters t) k start?).on r = (.ok (some m), r') ∧ r.Keeps r' ∧
      r'.document.text? m = some (String.ofList (t.enclose p)) ∧
      Ahead t r'.document (r'.document.nextAfter? m) (ps.drop (k + 1)) := by
  induction k generalizing start? ps r with
  | zero =>
    cases start? with
    | none => simp [h.eq_nil] at hp
    | some id =>
      obtain ⟨result, r', hon, hkeeps, hmet⟩ := h.search ht
      cases hmet with
      | nothing => simp at hp
      | @marker q qs m htext _ hahead =>
        obtain rfl : q = p := by simpa using hp
        refine ⟨m, r', ?_, hkeeps, htext, hahead⟩
        rw [Run.meet, Run.on_bind_ok hon, Run.on_pure]
  | succ k ih =>
    cases start? with
    | none => simp [h.eq_nil] at hp
    | some id =>
      obtain ⟨result, r₁, hon, hkeeps, hmet⟩ := h.search ht
      cases hmet with
      | nothing => simp at hp
      | @marker q qs m _ _ hahead =>
        obtain ⟨m', r', hon', hkeeps', htext, hahead'⟩ := ih hahead (by simpa using hp)
        refine ⟨m', r', ?_, hkeeps.trans hkeeps', htext, hahead'⟩
        rw [Run.meet, Run.on_bind_ok hon]
        dsimp only
        rw [Run.on_bind_ok (Run.on_document _), hon']

end Document.Ahead

/-- Searches that go on behind a placeholder they met meet what lies behind it. -/
theorem Run.meet_add {t : Toolkit} {i : ℕ} (k : ℕ) {start? : Option NodeId} {m : NodeId} {r' : RunState}
    (h : (Run.meet t i start?).on r = (.ok (some m), r')) :
    (Run.meet t (i + 1 + k) start?).on r = (Run.meet t k (r'.document.nextAfter? m)).on r' := by
  induction i generalizing start? r with
  | zero =>
    cases start? with
    | none => simp [Run.meet] at h
    | some id =>
      rw [Run.meet] at h
      obtain ⟨result, r₁, hon, h⟩ := Run.on_bind_eq_ok h
      cases result with
      | none => simp at h
      | some found =>
        obtain ⟨rfl, rfl⟩ : found = m ∧ r₁ = r' := by simpa using h
        rw [Nat.zero_add, Nat.add_comm, Run.meet, Run.on_bind_ok hon]
        rfl
  | succ i ih =>
    cases start? with
    | none => simp [Run.meet] at h
    | some id =>
      rw [Run.meet] at h
      obtain ⟨result, r₁, hon, h⟩ := Run.on_bind_eq_ok h
      cases result with
      | none => simp at h
      | some found =>
        have h' : (Run.meet t i (r₁.document.nextAfter? found)).on r₁ = (.ok (some m), r') := h
        rw [show i + 1 + 1 + k = (i + 1 + k) + 1 by omega, Run.meet, Run.on_bind_ok hon]
        exact ih h'

/-! ### The closing marker among those ahead -/

namespace Selection

def Nesting.closing? (as : Aliases) (openers : List String) (closer : String) : Nesting → List (List Char) → Option ℕ
  | _, [] => none
  | n, p :: ps =>
    if n.closes closer (as.nameOf? p) then some 0
    else (closing? as openers closer (n.pass openers closer (as.nameOf? p)) ps).map (· + 1)

variable {openers : List String} {closer : String}

theorem nameOf?_met {m : NodeId} {p : List Char} (htext : r.document.text? m = some (String.ofList (t.enclose p)))
    (hread : t.payload? (t.enclose p) = some p) :
    (nameOf? (.ofDelimiters t) m).on r = (.ok (r.aliases.nameOf? p), r) := by
  have hpayload : r.document.payload? (Toolkit.ofDelimiters t).delimiters m = some p := by
    rw [Document.payload?, htext, Option.bind_some, String.toList_ofList]
    exact hread
  rw [nameOf?, Run.on_bind_ok (Run.on_get r), Run.on_pure, hpayload]
  rfl

/-- The search for a closing marker meets the one that the payloads ahead say. -/
theorem seekEnd_ahead {n : ℕ} {nesting : Nesting} {start? : Option NodeId} {ps : List (List Char)} {k : ℕ}
    (h : r.document.Ahead t start? ps) (ht : t.Proper) (hn : ps.length < n)
    (hk : nesting.closing? r.aliases openers closer ps = some k) :
    ∃ m r', (seekEnd (.ofDelimiters t) openers closer n nesting start?).on r = (.ok (some m), r') ∧
      (Run.meet (.ofDelimiters t) k start?).on r = (.ok (some m), r') := by
  induction n generalizing nesting start? ps k r with
  | zero => omega
  | succ n ih =>
    cases start? with
    | none => simp [h.eq_nil, Nesting.closing?] at hk
    | some id =>
      obtain ⟨result, r₁, hon, hkeeps, hmet⟩ := h.search ht
      cases hmet with
      | nothing => simp [Nesting.closing?] at hk
      | @marker p ps m htext hread hahead =>
        have hname := nameOf?_met htext hread
        rw [hkeeps.aliases] at hname
        rw [Nesting.closing?] at hk
        rw [seekEnd, Run.on_bind_ok hon]
        dsimp only
        rw [Run.on_bind_ok hname]
        by_cases hcloses : nesting.closes closer (r.aliases.nameOf? p) = true
        · rw [if_pos hcloses] at hk
          obtain rfl := Option.some.inj hk
          refine ⟨m, r₁, by rw [if_pos hcloses, Run.on_pure], ?_⟩
          rw [Run.meet, Run.on_bind_ok hon, Run.on_pure]
        · rw [if_neg hcloses] at hk ⊢
          obtain ⟨k, hrest, rfl⟩ := Option.map_eq_some_iff.1 hk
          rw [← hkeeps.aliases] at hrest
          obtain ⟨m', r', hseek, hmeet⟩ := ih hahead (by simpa using hn) hrest
          rw [hkeeps.aliases] at hseek
          refine ⟨m', r', by rw [Run.on_bind_ok (Run.on_document _), hseek], ?_⟩
          rw [Run.meet, Run.on_bind_ok hon]
          dsimp only
          rw [Run.on_bind_ok (Run.on_document _), hmeet]

/-- The closing marker of a block is the one that searches from behind its opening marker meet, after as
many others as the payloads ahead say. -/
theorem areaEnd_ahead {s : Selection} {ps : List (List Char)} {k : ℕ} (htoolkit : s.toolkit? = some (.ofDelimiters t))
    (h : r.document.Ahead t (r.document.nextAfter? s.node) ps) (ht : t.Proper)
    (hk : Nesting.closing? r.aliases openers closer ⟨0, false⟩ ps = some k) :
    ∃ m r', (s.areaEnd openers closer).on r = (.ok m, r') ∧
      (Run.meet (.ofDelimiters t) k (r.document.nextAfter? s.node)).on r = (.ok (some m), r') := by
  obtain ⟨m, r', hseek, hmeet⟩ := seekEnd_ahead h ht (h.length_lt ht) hk
  have htool : s.toolkit.on r = (.ok (.ofDelimiters t), r) := by rw [toolkit, htoolkit, Run.on_pure]
  refine ⟨m, r', ?_, hmeet⟩
  rw [areaEnd, Run.on_bind_ok htool, Run.on_bind_ok (Run.on_document _), Run.on_bind_ok hseek, Run.on_pure]

end Selection

end Stencil
