import Stencil.Proofs.Document.PageEdit
import Stencil.Proofs.Payload.Pieces
/-!
Placeholders on pages: what goes with a placeholder that is removed, and the search for the next one,
which splits the text that it finds a marker in and leaves everything else alone.
-/

namespace Stencil

def Content.isBlank : Content → Bool
  | .text s => Text.allBlank s.toList
  | .image _ => false

def Content.cut? (t : Delimiters) : Content → Option Payload.Cut
  | .text s => t.cut? s.toList
  | .image _ => none

/-- What is there, piece by piece. -/
def Content.pieces (t : Delimiters) : Content → List Piece
  | .text s => t.pieces s.toList
  | .image attrs => [.image attrs]

def Leaf.piecesOf (t : Delimiters) (ls : List Leaf) : List Piece := ls.flatMap fun l ↦ l.content.pieces t

/-- What is left of a block with the leaves that are left: nothing, when they are blank. -/
def Paragraph.kept (bid : NodeId) (ls : List Leaf) : List Paragraph :=
  if ls.all fun l ↦ l.content.isBlank then [] else [⟨bid, ls⟩]

/-- Leaves that stand for some others, whose first marker is a leaf of its own. -/
structure Cutout (t : Delimiters) (d : Document) (old : List Leaf) (payload : List Char) (front : List Leaf) (m : Leaf)
    (back : List Leaf) : Prop where
  ids : ∀ id ∈ (front ++ m :: back).map Leaf.id, id ∈ old.map Leaf.id ∨ d.node? id = none
  content : m.content = .text (String.ofList (t.enclose payload))
  read : t.Proper → t.payload? (t.enclose payload) = some payload
  mark : t.Proper → m.content.pieces t = [.marker payload]
  words : t.Proper → ∀ l ∈ front, l.content.cut? t = none
  pieces : t.Proper → Leaf.piecesOf t old = Leaf.piecesOf t front ++ .marker payload :: Leaf.piecesOf t back
  source : ∃ l ∈ old, ∃ s, l.content = .text s ∧ t.enclose payload <:+: s.toList

theorem Leaf.piecesOf_append (t : Delimiters) (ls ms : List Leaf) :
    piecesOf t (ls ++ ms) = piecesOf t ls ++ piecesOf t ms := List.flatMap_append

theorem Leaf.piecesOf_cons (t : Delimiters) (l : Leaf) (ls : List Leaf) :
    piecesOf t (l :: ls) = l.content.pieces t ++ piecesOf t ls := List.flatMap_cons

namespace Document

/-- Where a walk goes on: at the first of some leaves, else at the first of some blocks. -/
def ahead? (right : List Leaf) (below : List Paragraph) : Option NodeId :=
  (right.map Leaf.id).head? <|> (below.map Paragraph.id).head?

def weight (bs : List Paragraph) : ℕ := (bs.flatMap Paragraph.ids).length

variable {d : Document} {page above below : List Paragraph} {b : Paragraph} {l : Leaf} {bid id : NodeId}
  {left right : List Leaf} {t : Delimiters}

namespace Shows

section Nodes

variable (h : d.Shows page)

include h

theorem length_le_size : (d.root :: page.flatMap Paragraph.ids).length ≤ d.size := by
  refine length_le_of_known h.nodup fun id hid ↦ ?_
  rcases List.mem_cons.1 hid with rfl | hid
  · simp [h.root]
  · exact h.known id hid

theorem text?_leaf (hb : b ∈ page) (hl : l ∈ b.leaves) :
    d.text? l.id = match l.content with
      | .text s => some s
      | .image _ => none := by
  rw [text?, data?, h.node?_leaf hb hl]
  cases l.content <;> rfl

theorem isBlankText_leaf (hb : b ∈ page) (hl : l ∈ b.leaves) : d.isBlankText l.id = l.content.isBlank := by
  rw [isBlankText, h.text?_leaf hb hl]
  cases l.content <;> rfl

theorem tag?_leaf (hb : b ∈ page) (hl : l ∈ b.leaves) : (d.tag? l.id == some paragraphTag) = false := by
  rw [tag?, data?, h.node?_leaf hb hl]
  cases l.content <;> simp [Content.data, imageTag, paragraphTag]

theorem blockOf_leaf (hb : b ∈ page) (hl : l ∈ b.leaves) : d.blockOf l.id = b.id := by
  rw [blockOf, h.ancestors_leaf hb hl, List.find?_cons, h.tag?_leaf hb hl, List.find?_cons, h.tag?_block hb]
  rfl

end Nodes

/-! ### Removal -/

theorem removalRoot_leaf (h : d.Shows (above ++ ⟨bid, left ++ l :: right⟩ :: below)) :
    d.removalRoot l.id = if (left ++ right).all fun l ↦ l.content.isBlank then bid else l.id := by
  have hb : (⟨bid, left ++ l :: right⟩ : Paragraph) ∈ above ++ ⟨bid, left ++ l :: right⟩ :: below := by simp
  have hblock := h.blockOf_leaf hb (l := l) (by simp)
  have hattached := h.isAttached_block hb
  have hne : ¬(bid = l.id ∨ d.isAttached bid = false) := by
    rintro (heq | hd)
    · exact h.leaf_ne_block hb (l := l) (by simp) heq.symm
    · rw [hd] at hattached
      contradiction
  have hchildren : (d.children bid).filter (· ≠ l.id) = (left ++ right).map Leaf.id := by
    rw [h.children_block hb, List.map_append, List.map_append, List.map_cons]
    exact filter_append_ne (by simpa using h.nodup_leaves hb)
  have hblank : (((left ++ right).map Leaf.id).all d.isBlankText) =
      (left ++ right).all fun l ↦ l.content.isBlank := by
    rw [List.all_map, Bool.eq_iff_iff, List.all_eq_true, List.all_eq_true]
    refine forall₂_congr fun x hx ↦ ?_
    have hxl : x ∈ left ++ l :: right := by
      rcases List.mem_append.1 hx with hx | hx <;> simp [hx]
    rw [Function.comp_apply, h.isBlankText_leaf hb hxl]
  simp only [removalRoot, hblock, if_neg hne, hchildren, hblank]

/-- A removed placeholder leaves what `Paragraph.kept` says of its block. -/
theorem deletePlaceholder (h : d.Shows (above ++ ⟨bid, left ++ l :: right⟩ :: below)) :
    ∃ e, d.deletePlaceholder l.id = .ok e ∧ e.Shows (above ++ Paragraph.kept bid (left ++ right) ++ below) ∧
      Grows d e ∧ ((left ++ right).all (fun l ↦ l.content.isBlank) = true →
        e.HasBlock none ⟨bid, left ++ l :: right⟩) := by
  rw [Document.deletePlaceholder, h.removalRoot_leaf, Paragraph.kept]
  split
  · next hblank =>
    obtain ⟨e, he, hshows, hgrows, hblock⟩ := h.detach_block
    exact ⟨e, he, by simpa using hshows, hgrows, fun _ ↦ hblock⟩
  · next hblank =>
    obtain ⟨e, he, hshows, hgrows, _⟩ := h.detach_leaf
    exact ⟨e, he, by simpa using hshows, hgrows, fun hb ↦ absurd hb hblank⟩

section Apart

variable {apart : Paragraph} (h : d.Shows page) (hapart : d.HasBlock none apart)

include h hapart

theorem ancestors_apart (hl : l ∈ apart.leaves) : d.ancestors l.id = [apart.id] := by
  have hparent : d.parent? l.id = some apart.id := parent?_of_node (hapart.leaves l hl)
  have htop : d.parent? apart.id = none := parent?_of_node hapart.node
  obtain ⟨n, hn⟩ : ∃ n, d.size = n + 1 := ⟨d.size - 1, by have := h.size_pos; omega⟩
  rw [ancestors, hn]
  simp only [climb, hparent]
  cases n <;> simp only [climb, htop]

variable (hroot : apart.id ≠ d.root)

include hroot

/-- A marker in a block that was cut off is removed alone. -/
theorem removalRoot_apart (hl : l ∈ apart.leaves) : d.removalRoot l.id = l.id := by
  have hleaf := hapart.leaves l hl
  rw [HasLeaf] at hleaf
  have htag : (d.tag? l.id == some paragraphTag) = false := by
    rw [tag?, data?, hleaf]
    cases l.content <;> simp [Content.data, imageTag, paragraphTag]
  have htop : (d.tag? apart.id == some paragraphTag) = true := by simp [tag?, data?, hapart.node]
  have hblock : d.blockOf l.id = apart.id := by
    rw [blockOf, h.ancestors_apart hapart hl, List.find?_cons, htag, List.find?_cons, htop]
    rfl
  have hout : d.isAttached apart.id = false := by
    rw [← Bool.not_eq_true, h.isAttached_iff]
    exact h.notMem_of_hasBlock hapart hroot _ (List.mem_cons_self ..)
  simp only [removalRoot, hblock, hout, or_true, if_true]

theorem deletePlaceholder_apart (hnodup : apart.ids.Nodup) (hl : l ∈ apart.leaves) :
    ∃ e, d.deletePlaceholder l.id = .ok e ∧ e.Shows page ∧ Grows d e := by
  have hleaf := hapart.leaves l hl
  have hne : l.id ≠ apart.id := fun heq ↦ (List.nodup_cons.1 hnodup).1 (heq ▸ List.mem_map_of_mem hl)
  have hout := h.notMem_of_hasBlock hapart hroot
  have hlout := hout l.id (List.mem_cons_of_mem _ (List.mem_map_of_mem hl))
  have hlroot : l.id ≠ d.root := fun heq ↦ hlout (heq ▸ List.mem_cons_self ..)
  rw [Document.deletePlaceholder, h.removalRoot_apart hapart hroot hl]
  refine ⟨(d.modify apart.id fun n ↦ { n with children := n.children.filter (· ≠ l.id) }).modify l.id
    fun n ↦ { n with parent? := none }, ?_, ?_, (Grows.modify _ _ _).trans (Grows.modify _ _ _)⟩
  · simp [detach, check_ok hleaf, hlroot, parent?_of_node hleaf, bind, Except.bind]
  refine h.congr (by simp) (h.linked.release hapart.node hleaf hne (node?_release hapart.node hleaf hne))
    fun id hid ↦ ?_
  have hidl : id ≠ l.id := fun heq ↦ hlout (heq ▸ hid)
  have hidb : id ≠ apart.id := fun heq ↦ hout _ (List.mem_cons_self ..) (heq ▸ hid)
  rw [node?_modify_of_ne hidl, node?_modify_of_ne hidb]

/-- Where a walk goes on that begins at a node in a block that was cut off: in that block, if at all. -/
theorem nextAfter?_apart {n : NodeId} (hl : l ∈ apart.leaves) (hnext : d.nextAfter? l.id = some n) :
    d.isAttached n = false := by
  have hparent : d.parent? l.id = some apart.id := parent?_of_node (hapart.leaves l hl)
  have htop : d.parent? apart.id = none := parent?_of_node hapart.node
  have hchildren : d.children apart.id = apart.leaves.map Leaf.id := by simp [children, hapart.node]
  have hfollowing : ∀ ids : List NodeId, following? l.id ids = some n → n ∈ ids := by
    intro ids
    induction ids with
    | nil => simp [following?]
    | cons c cs ih =>
      intro hn
      rw [following?] at hn
      split at hn
      · exact List.mem_cons_of_mem _ (List.mem_of_mem_head? hn)
      · exact List.mem_cons_of_mem _ (ih hn)
  rw [nextAfter?, h.ancestors_apart hapart hl] at hnext
  simp only [List.findSome?_cons, nextSibling?, hparent, htop, Option.bind_some, Option.bind_none, List.findSome?_nil,
    hchildren] at hnext
  have hn : n ∈ apart.ids := by
    cases hfollow : following? l.id (apart.leaves.map Leaf.id) with
    | none => simp [hfollow] at hnext
    | some m =>
      obtain rfl : m = n := by simpa [hfollow] using hnext
      exact List.mem_cons_of_mem _ (hfollowing _ hfollow)
  rw [← Bool.not_eq_true, h.isAttached_iff]
  exact h.notMem_of_hasBlock hapart hroot n hn

end Apart

/-! ### Search -/

theorem isolate_of_text?_none (h : d.text? id = none) : d.isolate t id = ⟨d, none, .ok none⟩ := by
  simp only [isolate, h, Option.bind_none]

theorem isolate_none (h : d.Shows page) (hb : b ∈ page) (hl : l ∈ b.leaves) (hcut : l.content.cut? t = none) :
    d.isolate t l.id = ⟨d, none, .ok none⟩ := by
  have hnone : ((d.text? l.id).bind fun s ↦ t.cut? s.toList) = none := by
    rw [h.text?_leaf hb hl]
    cases hc : l.content with
    | text s => simpa [hc, Content.cut?] using hcut
    | image => rfl
  simp only [isolate, hnone]

theorem splitAround {s : String} (h : d.Shows (above ++ ⟨bid, left ++ ⟨id, .text s⟩ :: right⟩ :: below))
    (before marker after : String) :
    ∃ e front m back, d.splitAround id before marker after = (e, .ok m.id) ∧
      e.Shows (above ++ ⟨bid, left ++ (front ++ m :: back) ++ right⟩ :: below) ∧ Grows d e ∧
      (∀ i ∈ (front ++ m :: back).map Leaf.id, i = id ∨ d.node? i = none) ∧
      front.map Leaf.content = (if before.isEmpty then [] else [.text before]) ∧ m.content = .text marker ∧
      back.map Leaf.content = (if after.isEmpty then [] else [.text after]) := by
  obtain ⟨e₁, front, m, hplace, h₁, hg₁, hids₁, hfront, hm⟩ : ∃ e₁ front m,
      (if before.isEmpty then (d.putText id marker, .ok id)
        else (d.putText id before).addTextAfter id marker) = (e₁, .ok m.id) ∧
      e₁.Shows (above ++ ⟨bid, left ++ (front ++ [m]) ++ right⟩ :: below) ∧ Grows d e₁ ∧
      (∀ i ∈ (front ++ [m]).map Leaf.id, i = id ∨ d.node? i = none) ∧
      front.map Leaf.content = (if before.isEmpty then [] else [.text before]) ∧ m.content = .text marker := by
    cases before.isEmpty with
    | true =>
      exact ⟨_, [], ⟨id, .text marker⟩, rfl, by simpa using h.putText marker, Grows.modify _ _ _, by simp, rfl, rfl⟩
    | false =>
      obtain ⟨e, he, hshows, hgrows⟩ := (h.putText before).addTextAfter marker
      have hg : Grows d (d.putText id before) := Grows.modify _ _ _
      refine ⟨e, [⟨id, .text before⟩], ⟨(d.putText id before).fresh, .text marker⟩, he, by simpa using hshows,
        hg.trans hgrows, ?_, rfl, rfl⟩
      intro i hi
      rcases (by simpa using hi : i = id ∨ i = (d.putText id before).fresh) with rfl | rfl
      · exact .inl rfl
      · exact .inr (hg.unknown (node?_fresh _))
  simp only [Document.splitAround, hplace]
  cases after.isEmpty with
  | true => exact ⟨e₁, front, m, [], rfl, h₁, hg₁, hids₁, hfront, hm, rfl⟩
  | false =>
    have h₁' : e₁.Shows (above ++ ⟨bid, (left ++ front) ++ m :: right⟩ :: below) := by simpa using h₁
    obtain ⟨e, he, hshows, hgrows⟩ := h₁'.addTextAfter after
    refine ⟨e, front, m, [⟨e₁.fresh, .text after⟩], ?_, by simpa using hshows, hg₁.trans hgrows, ?_, hfront, hm, rfl⟩
    · simp [he, Except.map]
    · intro i hi
      have hcases : i ∈ (front ++ [m]).map Leaf.id ∨ i = e₁.fresh := by simpa [or_assoc] using hi
      rcases hcases with hi | rfl
      · exact hids₁ i hi
      · exact .inr (hg₁.unknown (node?_fresh _))

theorem isolate_some {c : Payload.Cut} (h : d.Shows (above ++ ⟨bid, left ++ l :: right⟩ :: below))
    (hcut : l.content.cut? t = some c) :
    ∃ e split? front m back, d.isolate t l.id = ⟨e, split?, .ok (some m.id)⟩ ∧
      e.Shows (above ++ ⟨bid, left ++ (front ++ m :: back) ++ right⟩ :: below) ∧ Grows d e ∧
      Cutout t d [l] c.payload front m back := by
  have hb : (⟨bid, left ++ l :: right⟩ : Paragraph) ∈ above ++ ⟨bid, left ++ l :: right⟩ :: below := by simp
  obtain ⟨id, content⟩ := l
  cases content with
  | image => simp [Content.cut?] at hcut
  | text s =>
  change t.cut? s.toList = some c at hcut
  have hsome : ((d.text? id).bind fun s ↦ t.cut? s.toList) = some c := by
    rw [h.text?_leaf hb (l := ⟨id, .text s⟩) (by simp)]
    exact hcut
  have hwhole := Delimiters.cut?_eq_append hcut
  have hpieces : t.Proper → Leaf.piecesOf t [⟨id, .text s⟩] = Delimiters.wordsOf c.before ++ .marker c.payload ::
      if c.after.isEmpty then [] else t.pieces c.after := by
    intro ht
    rw [Leaf.piecesOf, List.flatMap_singleton]
    exact Delimiters.pieces_cut ht hcut
  have hpayload : t.Proper → t.payload? (t.enclose c.payload) = some c.payload := fun ht ↦
    Delimiters.payload?_enclose ht.closing hcut
  have hmark : t.Proper → Content.pieces t (.text (String.ofList (t.enclose c.payload))) = [.marker c.payload] :=
    fun ht ↦ by
      rw [Content.pieces, String.toList_ofList]
      exact Delimiters.pieces_enclose ht hcut
  have hbefore : t.Proper → Content.cut? t (.text (String.ofList c.before)) = none := fun ht ↦ by
    rw [Content.cut?, String.toList_ofList]
    exact Delimiters.cut?_before ht hcut
  have hwords : t.Proper → Content.pieces t (.text (String.ofList c.before)) = [.words c.before] := fun ht ↦ by
    rw [Content.pieces, String.toList_ofList]
    exact Delimiters.pieces_words (Delimiters.cut?_before ht hcut)
  have hafter : Content.pieces t (.text (String.ofList c.after)) = t.pieces c.after := by
    rw [Content.pieces, String.toList_ofList]
  have hempty : ∀ u : List Char, (String.ofList u).isEmpty = u.isEmpty := fun u ↦ by
    cases u <;> simp [String.isEmpty_iff]
  have hsource : ∃ l ∈ [(⟨id, .text s⟩ : Leaf)], ∃ s, l.content = .text s ∧ t.enclose c.payload <:+: s.toList :=
    ⟨_, List.mem_singleton.2 rfl, s, rfl, c.before, c.after, hwhole.symm⟩
  by_cases hone : (c.before.isEmpty && c.after.isEmpty) = true
  · obtain ⟨hbe, hae⟩ : c.before = [] ∧ c.after = [] := by simpa using hone
    refine ⟨d, none, [], ⟨id, .text s⟩, [], ?_, by simpa using h, Grows.refl d, ?_⟩
    · simp only [isolate, hsome, if_pos hone]
    · rw [hbe, hae, List.nil_append, List.append_nil] at hwhole
      rw [← hwhole, String.ofList_toList] at hmark
      refine ⟨fun i hi ↦ .inl (by simpa using hi), ?_, hpayload, hmark, by simp, ?_, hsource⟩
      · rw [← hwhole, String.ofList_toList]
      · intro ht
        rw [hpieces ht, hbe, hae]
        rfl
  · obtain ⟨e, front, m, back, hsplit, hshows, hgrows, hids, hfront, hm, hback⟩ :=
      h.splitAround (String.ofList c.before) (String.ofList (t.enclose c.payload)) (String.ofList c.after)
    refine ⟨e, some (id, String.ofList (t.enclose c.payload)), front, m, back, ?_, hshows, hgrows,
      ⟨?_, hm, hpayload, fun ht ↦ by rw [hm, hmark ht], ?_, ?_, hsource⟩⟩
    · simp only [isolate, hsome, if_neg hone, hsplit]
      rfl
    · intro i hi
      rcases hids i hi with rfl | hi
      · exact .inl (by simp)
      · exact .inr hi
    · intro ht l hl
      have hc : l.content ∈ front.map Leaf.content := List.mem_map_of_mem hl
      rw [hfront, hempty] at hc
      split at hc
      · simp at hc
      · rw [List.mem_singleton.1 hc]
        exact hbefore ht
    · intro ht
      have hmap : ∀ ls : List Leaf, Leaf.piecesOf t ls = (ls.map Leaf.content).flatMap (Content.pieces t) := fun ls ↦ by
        rw [List.flatMap_map]
        rfl
      rw [hpieces ht, hmap front, hmap back, hfront, hback, hempty, hempty, Delimiters.wordsOf]
      cases c.before.isEmpty <;> cases c.after.isEmpty <;> simp [hwords ht, hafter]

/-! ### Search -/

theorem searchFrom_step {n : ℕ} (h : d.isolate t id = ⟨d, none, .ok none⟩) :
    d.searchFrom t (n + 1) id = match d.nextInOrder? id with
      | none => ⟨d, none, .ok none⟩
      | some next => d.searchFrom t n next := by
  cases hnext : d.nextInOrder? id <;> simp only [searchFrom, h, hnext]

theorem searchFrom_found {n : ℕ} {e : Document} {split? : Option (NodeId × String)} {m : NodeId}
    (h : d.isolate t id = ⟨e, split?, .ok (some m)⟩) : d.searchFrom t (n + 1) id = ⟨e, split?, .ok (some m)⟩ := by
  rw [searchFrom]
  simp only [h]

/-- A search from a leaf finds a marker in it or a later one of the block, or goes on below. -/
theorem searchFrom_leaves : ∀ (right left : List Leaf) (n : ℕ) (l : Leaf),
    d.Shows (above ++ ⟨bid, left ++ l :: right⟩ :: below) →
    (∃ e split? payload front m back, d.searchFrom t (n + (right.length + 1)) l.id = ⟨e, split?, .ok (some m.id)⟩ ∧
      e.Shows (above ++ ⟨bid, left ++ (front ++ m :: back)⟩ :: below) ∧ Grows d e ∧
      Cutout t d (l :: right) payload front m back) ∨
    ((∀ x ∈ l :: right, x.content.cut? t = none) ∧ d.searchFrom t (n + (right.length + 1)) l.id =
      match (below.map Paragraph.id).head? with
      | none => ⟨d, none, .ok none⟩
      | some next => d.searchFrom t n next) := by
  intro right
  induction right with
  | nil =>
    intro left n l h
    cases hcut : l.content.cut? t with
    | some c =>
      obtain ⟨e, split?, front, m, back, hisolate, hshows, hgrows, hcutout⟩ := h.isolate_some hcut
      exact .inl ⟨e, split?, c.payload, front, m, back, searchFrom_found hisolate, by simpa using hshows, hgrows,
        hcutout⟩
    | none =>
      refine .inr ⟨by simpa using hcut, ?_⟩
      have hisolate := h.isolate_none (b := ⟨bid, left ++ [l]⟩) (l := l) (by simp) (by simp) hcut
      rw [List.length_nil, Nat.zero_add, searchFrom_step hisolate, h.nextInOrder?_leaf]
      rfl
  | cons r right ih =>
    intro left n l h
    cases hcut : l.content.cut? t with
    | some c =>
      obtain ⟨e, split?, front, m, back, hisolate, hshows, hgrows, hcutout⟩ := h.isolate_some hcut
      refine .inl ⟨e, split?, c.payload, front, m, back ++ r :: right, searchFrom_found hisolate,
        by simpa using hshows, hgrows, ⟨?_, hcutout.content, hcutout.read, hcutout.mark, hcutout.words, ?_, ?_⟩⟩
      · intro i hi
        have hcases : i ∈ (front ++ m :: back).map Leaf.id ∨ i ∈ (r :: right).map Leaf.id := by
          simpa [or_assoc] using hi
        rcases hcases with hi | hi
        · rcases hcutout.ids i hi with hi | hi
          · exact .inl (by simp_all)
          · exact .inr hi
        · exact .inl (by simp_all)
      · intro ht
        have hpieces := hcutout.pieces ht
        rw [Leaf.piecesOf_cons] at hpieces
        rw [Leaf.piecesOf_cons, Leaf.piecesOf_append, ← List.append_nil (l.content.pieces t)]
        change _ ++ Leaf.piecesOf t [] ++ _ = _
        rw [hpieces]
        simp
      · obtain ⟨x, hx, hsource⟩ := hcutout.source
        exact ⟨l, List.mem_cons_self .., List.mem_singleton.1 hx ▸ hsource⟩
    | none =>
      have h' : d.Shows (above ++ ⟨bid, (left ++ [l]) ++ r :: right⟩ :: below) := by simpa using h
      have hisolate := h.isolate_none (b := ⟨bid, left ++ l :: r :: right⟩) (l := l) (by simp) (by simp) hcut
      have hstep : d.searchFrom t (n + ((r :: right).length + 1)) l.id =
          d.searchFrom t (n + (right.length + 1)) r.id := by
        rw [List.length_cons, ← Nat.add_assoc n, searchFrom_step hisolate, h.nextInOrder?_leaf]
        rfl
      rw [hstep]
      rcases ih (left ++ [l]) n r h' with ⟨e, split?, payload, front, m, back, hs, hshows, hgrows, hc⟩ | ⟨hnone, hs⟩
      · refine .inl ⟨e, split?, payload, l :: front, m, back, hs, by simpa using hshows, hgrows,
          ⟨?_, hc.content, hc.read, hc.mark, ?_, ?_, ?_⟩⟩
        · intro i hi
          rcases List.mem_cons.1 (by simpa using hi : i ∈ l.id :: (front ++ m :: back).map Leaf.id) with rfl | hi
          · exact .inl (by simp)
          · rcases hc.ids i hi with hi | hi
            · exact .inl (List.mem_cons_of_mem _ hi)
            · exact .inr hi
        · intro ht x hx
          rcases List.mem_cons.1 hx with rfl | hx
          · exact hcut
          · exact hc.words ht x hx
        · intro ht
          rw [Leaf.piecesOf_cons, hc.pieces ht, Leaf.piecesOf_cons, List.append_assoc]
        · obtain ⟨x, hx, hsource⟩ := hc.source
          exact ⟨x, List.mem_cons_of_mem _ hx, hsource⟩
      · refine .inr ⟨?_, hs⟩
        intro x hx
        rcases List.mem_cons.1 hx with rfl | hx
        · exact hcut
        · exact hnone x hx

theorem isolate_block (h : d.Shows page) (hb : b ∈ page) : d.isolate t b.id = ⟨d, none, .ok none⟩ :=
  isolate_of_text?_none (h.text?_block hb)

/-- A search from a block finds the first marker of the blocks from there on. -/
theorem searchFrom_blocks : ∀ (below above : List Paragraph) (b : Paragraph) (n : ℕ),
    d.Shows (above ++ b :: below) → weight (b :: below) ≤ n →
    (∃ e split? payload front m back mid b' below', d.searchFrom t (n + 1) b.id = ⟨e, split?, .ok (some m.id)⟩ ∧
      b :: below = mid ++ b' :: below' ∧ (∀ x ∈ mid, ∀ l ∈ x.leaves, l.content.cut? t = none) ∧
      e.Shows (above ++ mid ++ ⟨b'.id, front ++ m :: back⟩ :: below') ∧ Grows d e ∧
      Cutout t d b'.leaves payload front m back) ∨
    ((∀ x ∈ b :: below, ∀ l ∈ x.leaves, l.content.cut? t = none) ∧
      d.searchFrom t (n + 1) b.id = ⟨d, none, .ok none⟩) := by
  intro below
  induction below with
  | nil =>
    intro above b n h hn
    have hstep := searchFrom_step (n := n) (h.isolate_block (t := t) (b := b) (by simp))
    rw [h.nextInOrder?_block] at hstep
    obtain ⟨bid, leaves⟩ := b
    cases leaves with
    | nil => exact .inr ⟨by simp, hstep⟩
    | cons l right =>
      obtain ⟨k, rfl⟩ : ∃ k, n = k + (right.length + 1) := ⟨n - (right.length + 1), by
        simp [weight, Paragraph.ids] at hn
        omega⟩
      have hstep' : d.searchFrom t (k + (right.length + 1) + 1) bid =
        d.searchFrom t (k + (right.length + 1)) l.id := hstep
      rw [hstep']
      rcases searchFrom_leaves right [] k l h with
        ⟨e, split?, payload, front, m, back, hs, hshows, hgrows, hc⟩ | ⟨hnone, hs⟩
      · exact .inl ⟨e, split?, payload, front, m, back, [], ⟨bid, l :: right⟩, [], hs, rfl, by simp,
          by simpa using hshows, hgrows, hc⟩
      · exact .inr ⟨by simpa using hnone, hs⟩
  | cons c below ih =>
    intro above b n h hn
    have hstep := searchFrom_step (n := n) (h.isolate_block (t := t) (b := b) (by simp))
    rw [h.nextInOrder?_block] at hstep
    have hnext : d.Shows ((above ++ [b]) ++ c :: below) := by simpa using h
    have hgo : ∀ k, weight (c :: below) ≤ k → (∀ l ∈ b.leaves, l.content.cut? t = none) →
        d.searchFrom t (n + 1) b.id = d.searchFrom t (k + 1) c.id →
        (∃ e split? payload front m back mid b' below', d.searchFrom t (n + 1) b.id = ⟨e, split?, .ok (some m.id)⟩ ∧
          b :: c :: below = mid ++ b' :: below' ∧ (∀ x ∈ mid, ∀ l ∈ x.leaves, l.content.cut? t = none) ∧
          e.Shows (above ++ mid ++ ⟨b'.id, front ++ m :: back⟩ :: below') ∧ Grows d e ∧
          Cutout t d b'.leaves payload front m back) ∨
        ((∀ x ∈ b :: c :: below, ∀ l ∈ x.leaves, l.content.cut? t = none) ∧
          d.searchFrom t (n + 1) b.id = ⟨d, none, .ok none⟩) := by
      intro k hk hb heq
      rcases ih (above ++ [b]) c k hnext hk with
        ⟨e, split?, payload, front, m, back, mid, b', below', hs, hsplit, hmid, hshows, hgrows, hc⟩ | ⟨hnone, hs⟩
      · refine .inl ⟨e, split?, payload, front, m, back, b :: mid, b', below', heq.trans hs, by rw [hsplit]; rfl, ?_,
          by simpa using hshows, hgrows, hc⟩
        intro x hx
        rcases List.mem_cons.1 hx with rfl | hx
        · exact hb
        · exact hmid x hx
      · refine .inr ⟨?_, heq.trans hs⟩
        intro x hx
        rcases List.mem_cons.1 hx with rfl | hx
        · exact hb
        · exact hnone x hx
    have hweight : weight (b :: c :: below) = b.leaves.length + 1 + weight (c :: below) := by
      simp only [weight, Paragraph.ids, List.flatMap_cons, List.length_append, List.length_cons, List.length_map]
    have hpos : 0 < weight (c :: below) := by simp [weight, Paragraph.ids]
    obtain ⟨bid, leaves⟩ := b
    cases leaves with
    | nil =>
      obtain ⟨k, rfl⟩ : ∃ k, n = k + 1 := ⟨n - 1, by omega⟩
      exact hgo k (by simp at hweight; omega) (by simp) hstep
    | cons l right =>
      simp only [List.length_cons] at hweight
      obtain ⟨k, rfl⟩ : ∃ k, n = k + 1 + (right.length + 1) := ⟨n - (right.length + 1) - 1, by omega⟩
      have hstep' : d.searchFrom t (k + 1 + (right.length + 1) + 1) bid =
        d.searchFrom t (k + 1 + (right.length + 1)) l.id := hstep
      rcases searchFrom_leaves right [] (k + 1) l h with
        ⟨e, split?, payload, front, m, back, hs, hshows, hgrows, hc⟩ | ⟨hnone, hs⟩
      · exact .inl ⟨e, split?, payload, front, m, back, [], ⟨bid, l :: right⟩, c :: below, hstep'.trans hs, rfl,
          by simp, by simpa using hshows, hgrows, hc⟩
      · exact hgo k (by omega) hnone (hstep'.trans hs)

end Shows

/-- What a search comes to that begins at the first of some blocks: nothing, and the document is as it
was, or a marker in the first block that has one. -/
inductive FoundBelow (t : Delimiters) (d e : Document) (above below : List Paragraph) : Option NodeId → Prop where
  | nothing : e = d → (∀ x ∈ below, ∀ l ∈ x.leaves, l.content.cut? t = none) → FoundBelow t d e above below none
  | marker {payload : List Char} {front back : List Leaf} {m : Leaf} {mid below' : List Paragraph} {b : Paragraph} :
      below = mid ++ b :: below' → (∀ x ∈ mid, ∀ l ∈ x.leaves, l.content.cut? t = none) →
      e.Shows (above ++ mid ++ ⟨b.id, front ++ m :: back⟩ :: below') →
      Cutout t d b.leaves payload front m back → FoundBelow t d e above below (some m.id)

/-- What a search comes to that begins within a block. -/
inductive Found (t : Delimiters) (d e : Document) (above : List Paragraph) (bid : NodeId) (left right : List Leaf)
    (below : List Paragraph) : Option NodeId → Prop where
  | here {payload : List Char} {front back : List Leaf} {m : Leaf} :
      e.Shows (above ++ ⟨bid, left ++ (front ++ m :: back)⟩ :: below) →
      Cutout t d right payload front m back → Found t d e above bid left right below (some m.id)
  | further {result : Option NodeId} : (∀ l ∈ right, l.content.cut? t = none) →
      FoundBelow t d e (above ++ [⟨bid, left ++ right⟩]) below result → Found t d e above bid left right below result

namespace Shows

theorem searchFrom_below {b : Paragraph} {n : ℕ} (h : d.Shows (above ++ b :: below)) (hn : weight (b :: below) ≤ n) :
    ∃ e split? result, d.searchFrom t (n + 1) b.id = ⟨e, split?, .ok result⟩ ∧
      FoundBelow t d e above (b :: below) result ∧ Grows d e := by
  rcases searchFrom_blocks (t := t) below above b n h hn with
    ⟨e, split?, payload, front, m, back, mid, b', below', hs, hsplit, hmid, hshows, hgrows, hc⟩ | ⟨hnone, hs⟩
  · exact ⟨e, split?, some m.id, hs, .marker hsplit hmid hshows hc, hgrows⟩
  · exact ⟨d, none, none, hs, .nothing rfl hnone, Grows.refl d⟩

theorem search_blocks (h : d.Shows (above ++ below)) (hid : (below.map Paragraph.id).head? = some id) :
    ∃ e split? result, d.search t id = ⟨e, split?, .ok result⟩ ∧ FoundBelow t d e above below result ∧ Grows d e := by
  cases below with
  | nil => simp at hid
  | cons b below =>
    obtain rfl : b.id = id := by simpa using hid
    have hlength := h.length_le_size
    rw [search]
    refine h.searchFrom_below ?_
    simp only [weight, List.length_cons, List.flatMap_append, List.length_append] at hlength ⊢
    omega

theorem search_root (h : d.Shows page) :
    ∃ e split? result, d.search t d.root = ⟨e, split?, .ok result⟩ ∧ FoundBelow t d e [] page result ∧
      Grows d e := by
  have htext : d.text? d.root = none := by simp [text?, data?, h.root]
  have hstep := searchFrom_step (n := d.size) (isolate_of_text?_none (t := t) htext)
  rw [h.nextInOrder?_root] at hstep
  rw [search, hstep]
  cases page with
  | nil => exact ⟨d, none, none, rfl, .nothing rfl (by simp), Grows.refl d⟩
  | cons b below =>
    obtain ⟨n, hn⟩ : ∃ n, d.size = n + 1 := ⟨d.size - 1, by have := h.size_pos; omega⟩
    have hlength := h.length_le_size
    change ∃ e split? result, d.searchFrom t d.size b.id = ⟨e, split?, .ok result⟩ ∧ _
    rw [hn]
    refine searchFrom_below (show d.Shows ([] ++ b :: below) from h) ?_
    simp only [weight, List.length_cons] at hlength ⊢
    omega

theorem search_within (h : d.Shows (above ++ ⟨bid, left ++ right⟩ :: below)) (hid : ahead? right below = some id) :
    ∃ e split? result, d.search t id = ⟨e, split?, .ok result⟩ ∧ Found t d e above bid left right below result ∧
      Grows d e := by
  have hlength := h.length_le_size
  simp only [List.length_cons, List.flatMap_append, List.flatMap_cons, List.length_append, Paragraph.ids, List.length_map]
    at hlength
  cases right with
  | nil =>
    have h' : d.Shows ((above ++ [⟨bid, left ++ []⟩]) ++ below) := by simpa using h
    have hhead : (below.map Paragraph.id).head? = some id := by simpa [ahead?] using hid
    obtain ⟨e, split?, result, hs, hfound, hgrows⟩ := h'.search_blocks (t := t) hhead
    exact ⟨e, split?, result, hs, .further (by simp) hfound, hgrows⟩
  | cons l right =>
    obtain rfl : l.id = id := by simpa [ahead?] using hid
    simp only [List.length_cons] at hlength
    obtain ⟨n, hn⟩ : ∃ n, d.size + 1 = n + (right.length + 1) := ⟨d.size - right.length, by omega⟩
    rw [search, hn]
    rcases searchFrom_leaves right left n l h with
      ⟨e, split?, payload, front, m, back, hs, hshows, hgrows, hc⟩ | ⟨hnone, hs⟩
    · exact ⟨e, split?, some m.id, hs, .here hshows hc, hgrows⟩
    · cases below with
      | nil => exact ⟨d, none, none, hs, .further hnone (.nothing rfl (by simp)), Grows.refl d⟩
      | cons b below =>
        have h' : d.Shows ((above ++ [⟨bid, left ++ l :: right⟩]) ++ b :: below) := by simpa using h
        obtain ⟨k, rfl⟩ : ∃ k, n = k + 1 := ⟨n - 1, by omega⟩
        obtain ⟨e, split?, result, hs', hfound, hgrows⟩ := h'.searchFrom_below (t := t) (n := k) (by
          simp only [weight, Paragraph.ids, List.flatMap_cons, List.length_append, List.length_cons, List.length_map]
            at hlength ⊢
          omega)
        exact ⟨e, split?, result, hs.trans hs', .further hnone hfound, hgrows⟩

end Shows

end Document

end Stencil
