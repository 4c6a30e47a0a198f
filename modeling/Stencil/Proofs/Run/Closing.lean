import Stencil.Proofs.Run.Search
/-!
The closing marker of a block. The search for it passes each marker once, and a document has fewer
markers than the bound of the search allows.
-/

namespace Stencil

open Selection (placeholderBound)

/-! ### The number of markers -/

namespace Delimiters

variable {t : Delimiters}

theorem markers_pieces_le (ht : t.Proper) (s : List Char) : Piece.markers (t.pieces s) ≤ s.length := by
  induction hn : s.length using Nat.strong_induction_on generalizing s with
  | _ n ih =>
    subst hn
    cases hcut : t.cut? s with
    | none =>
      rw [pieces_words hcut]
      exact Nat.zero_le _
    | some c =>
      have hafter := after_length ht hcut
      have hwords : ∀ u : List Char, Piece.markers (wordsOf u) = 0 := fun u ↦ by
        rw [wordsOf]
        split <;> rfl
      have hrest : Piece.markers (if c.after.isEmpty then [] else t.pieces c.after) ≤ c.after.length := by
        split
        · exact Nat.zero_le _
        · exact ih _ hafter _ rfl
      have hcons : ∀ qs, Piece.markers (.marker c.payload :: qs) = Piece.markers qs + 1 := fun qs ↦
        List.countP_cons_of_pos rfl
      rw [pieces_cut ht hcut, Piece.markers_append, hwords, hcons]
      omega

end Delimiters

/-- What a node counts for in the bound on the number of markers. -/
def Node.share (n : Node) : ℕ :=
  match n.data with
  | .text s => s.length + 1
  | .element _ _ => 1

namespace Document

variable {t : Delimiters} {d : Document} {page : List Paragraph}

theorem placeholderBound_eq (d : Document) :
    placeholderBound d = 1 + ((List.range d.size).map fun i ↦ ((d.nodes[i]?).map Node.share).getD 0).sum := by
  have hfold : ∀ (f : ℕ → Node → ℕ), (∀ k node, f k node = k + node.share) → ∀ (ns : List Node) (k : ℕ),
      ns.foldl f k = k + (ns.map Node.share).sum := by
    intro f hf ns
    induction ns with
    | nil => simp
    | cons node ns ih =>
      intro k
      rw [List.foldl_cons, ih, List.map_cons, List.sum_cons, hf]
      omega
  have hnodes : d.nodes.toList.map Node.share =
      (List.range d.size).map fun i ↦ ((d.nodes[i]?).map Node.share).getD 0 := by
    refine List.ext_getElem (by simp [size]) fun i h _ ↦ ?_
    have hi : i < d.nodes.size := by simpa using h
    simp [hi]
  rw [placeholderBound, ← Array.foldl_toList, hfold, hnodes]
  intro k node
  rw [Node.share]
  cases node.data <;> rfl

def shareAt (d : Document) (id : NodeId) : ℕ := ((d.nodes[id.index]?).map Node.share).getD 0

/-- Nodes that are all different count for less than the bound. -/
theorem shares_lt {ids : List NodeId} (hnodup : ids.Nodup) (hknown : ∀ id ∈ ids, d.node? id ≠ none) :
    (ids.map d.shareAt).sum < placeholderBound d := by
  let share (i : ℕ) : ℕ := ((d.nodes[i]?).map Node.share).getD 0
  have hnode : ∀ id ∈ ids, ∃ n, d.node? id = some n := fun id hid ↦ Option.ne_none_iff_exists'.1 (hknown id hid)
  have hindices : (ids.map NodeId.index).Nodup := by
    apply hnodup.map_on
    intro a ha b hb heq
    obtain ⟨_, ha⟩ := hnode a ha
    obtain ⟨_, hb⟩ := hnode b hb
    exact NodeId.ext ((document_eq ha).trans (document_eq hb).symm) heq
  have hsubset : ids.map NodeId.index ⊆ List.range d.size := by
    intro i hi
    obtain ⟨id, hid, rfl⟩ := List.mem_map.1 hi
    obtain ⟨_, hid⟩ := hnode id hid
    exact List.mem_range.2 (index_lt_size hid)
  have hle : ((ids.map NodeId.index).map share).sum ≤ ((List.range d.size).map share).sum := by
    obtain ⟨is, hperm, hsub⟩ := hindices.subperm hsubset
    rw [← (hperm.map share).sum_eq]
    exact (hsub.map share).sum_le_sum fun _ _ ↦ Nat.zero_le _
  have hsum : (ids.map d.shareAt).sum = ((ids.map NodeId.index).map share).sum := by rw [List.map_map]; rfl
  rw [placeholderBound_eq, hsum, Nat.add_comm]
  exact Nat.lt_succ_of_le hle

theorem markers_le_share (ht : t.Proper) {parent : NodeId} {l : Leaf} (h : d.HasLeaf parent l) :
    Piece.markers (l.content.pieces t) ≤ d.shareAt l.id := by
  have hnode : d.nodes[l.id.index]? = some ⟨l.content.data, some parent, []⟩ := by
    have h' : d.node? l.id = _ := h
    rwa [node?, if_pos (document_eq h)] at h'
  rw [shareAt, hnode]
  cases hc : l.content with
  | image => exact Nat.zero_le _
  | text s =>
    have hle := Delimiters.markers_pieces_le ht s.toList
    rw [String.length_toList] at hle
    simpa [Content.data, Node.share, Content.pieces] using Nat.le_succ_of_le hle

/-- The page of a document has fewer markers than the bound on their number. -/
theorem Shows.markers_lt (ht : t.Proper) (h : d.Shows page) :
    Piece.markersIn (page.map (Paragraph.line t)) < placeholderBound d := by
  let leaves := page.flatMap Paragraph.leaves
  have hleaf : ∀ l ∈ leaves, ∃ parent, d.HasLeaf parent l := fun l hl ↦ by
    obtain ⟨b, hb, hl⟩ := List.mem_flatMap.1 hl
    exact ⟨b.id, (h.blocks b hb).leaves l hl⟩
  have hcount : Piece.markersIn (page.map (Paragraph.line t)) =
      (leaves.map fun l ↦ Piece.markers (l.content.pieces t)).sum := by
    have hline : ∀ ls : List Leaf, Piece.markers (Leaf.piecesOf t ls) =
        (ls.map fun l ↦ Piece.markers (l.content.pieces t)).sum := by
      intro ls
      induction ls with
      | nil => rfl
      | cons l ls ih => rw [Leaf.piecesOf_cons, Piece.markers_append, ih, List.map_cons, List.sum_cons]
    have hpage : ∀ bs : List Paragraph, Piece.markersIn (bs.map (Paragraph.line t)) =
        ((bs.flatMap Paragraph.leaves).map fun l ↦ Piece.markers (l.content.pieces t)).sum := by
      intro bs
      induction bs with
      | nil => rfl
      | cons b bs ih =>
        rw [List.map_cons, Piece.markersIn, List.map_cons, List.sum_cons, Paragraph.line, hline, List.flatMap_cons,
          List.map_append, List.sum_append, ← ih, Piece.markersIn]
    exact hpage page
  have hids : (leaves.map Leaf.id).Sublist (page.flatMap Paragraph.ids) := by
    have hsub : ∀ bs : List Paragraph, ((bs.flatMap Paragraph.leaves).map Leaf.id).Sublist (bs.flatMap Paragraph.ids) := by
      intro bs
      induction bs with
      | nil => exact .slnil
      | cons b bs ih =>
        rw [List.flatMap_cons, List.map_append, List.flatMap_cons, Paragraph.ids]
        exact (List.sublist_cons_self ..).append ih
    exact hsub page
  have hknown : ∀ id ∈ leaves.map Leaf.id, d.node? id ≠ none := by
    intro id hid
    obtain ⟨l, hl, rfl⟩ := List.mem_map.1 hid
    obtain ⟨_, hl⟩ := hleaf l hl
    exact Option.ne_none_iff_exists'.2 ⟨_, hl⟩
  have hshares := shares_lt ((List.nodup_cons.1 h.nodup).2.sublist hids) hknown
  have hle : (leaves.map fun l ↦ Piece.markers (l.content.pieces t)).sum ≤ ((leaves.map Leaf.id).map d.shareAt).sum := by
    rw [List.map_map]
    refine List.sum_le_sum fun l hl ↦ ?_
    obtain ⟨_, hl⟩ := hleaf l hl
    exact markers_le_share ht hl
  rw [hcount]
  exact hle.trans_lt hshares

end Document

/-! ### The closing marker -/

namespace Selection

variable {t : Delimiters} {above below : List Paragraph} {bid : NodeId} {left right : List Leaf} {m : Leaf}

theorem areaEnd_on {s : Selection} {r : RunState} (htoolkit : s.toolkit? = some (.ofDelimiters t))
    (hnode : s.node = m.id) (h : r.document.Shows (above ++ ⟨bid, left ++ m :: right⟩ :: below))
    (openers : List String) (closer : String) :
    ∃ result reach? r', (s.areaEnd openers closer).on r = (match result with
        | some id => .ok id
        | none => .error (.structure (.noClosing s.command.name closer)), r') ∧ r.Keeps r' ∧
      Sought t r.document r'.document above bid (left ++ [m]) right below result reach? ∧
      (t.Proper → reach? = Reach.seek? r.aliases openers closer ⟨0, false⟩ (Leaf.piecesOf t right)
        (below.map (Paragraph.line t))) := by
  have hnext : r.document.nextAfter? s.node = Document.ahead? right below := by
    rw [hnode]
    exact h.nextAfter?_leaf
  have h' : r.document.Shows (above ++ ⟨bid, (left ++ [m]) ++ right⟩ :: below) := by simpa using h
  obtain ⟨result, reach?, r', hon, hkeeps, hsought, hexact⟩ := seekEnd_on (t := t) openers closer
    (placeholderBound r.document) ⟨0, false⟩ r above bid (left ++ [m]) right below h'
  refine ⟨result, reach?, r', ?_, hkeeps, hsought, fun ht ↦ hexact ht ?_⟩
  · have htool : s.toolkit.on r = (.ok (.ofDelimiters t), r) := by rw [toolkit, htoolkit, Run.on_pure]
    rw [areaEnd, Run.on_bind_ok htool, Run.on_bind_ok (Run.on_document _), hnext, Run.on_bind_ok hon]
    cases result <;> rfl
  · have hlt := h'.markers_lt ht
    rw [List.map_append, List.map_cons, Piece.markersIn_append, Piece.markersIn, Piece.markersIn, List.map_cons,
      List.sum_cons, Paragraph.line, Leaf.piecesOf_append, Piece.markers_append] at hlt
    rw [Piece.markersIn]
    omega

end Selection

end Stencil
