import Stencil.Proofs.Document.Nodes
/-!
Pages: what a document of lines holds, read off its arena. A page is a list of blocks, one for each
paragraph below the root, and a block has texts and images as its leaves. An edit touches one place
of a page; the rest is shown by the new document as it was by the old one. Parents, siblings and the next
node in document order are where the page says.
-/

namespace Stencil

inductive Content where
  | text (s : String)
  | image (attrs : Entries String)

structure Leaf where
  id : NodeId
  content : Content

structure Paragraph where
  id : NodeId
  leaves : List Leaf

def Content.data : Content → NodeData
  | text s => .text s
  | image attrs => .element Document.imageTag attrs

def Paragraph.ids (b : Paragraph) : List NodeId := b.id :: b.leaves.map Leaf.id

namespace Document

variable {d e : Document} {id : NodeId}

/-! ### Links -/

/-- Every node that has a parent is among the children of that parent. -/
def Linked (d : Document) : Prop := ∀ id p, d.parent? id = some p → id ∈ d.children p

namespace Linked

theorem modify_data (h : d.Linked) (id : NodeId) {f : Node → Node}
    (hf : ∀ n, (f n).parent? = n.parent? ∧ (f n).children = n.children) : (d.modify id f).Linked := by
  have hsame : ∀ other, (d.modify id f).parent? other = d.parent? other ∧
      (d.modify id f).children other = d.children other := by
    intro other
    rw [parent?, parent?, children, children, node?_modify]
    split
    · next heq =>
      subst heq
      cases d.node? other with
      | none => exact ⟨rfl, rfl⟩
      | some n => simp [hf n]
    · exact ⟨rfl, rfl⟩
  intro other p hp
  rw [(hsame _).1] at hp
  rw [(hsame _).2]
  exact h other p hp

theorem create (h : d.Linked) (data : NodeData) : (d.create data).2.Linked := by
  intro other p hp
  have hother : other ≠ d.fresh := by
    rintro rfl
    simp [parent?, node?_create] at hp
  have hnode : (d.create data).2.node? other = d.node? other := by rw [node?_create, if_neg hother]
  have hin := h other p (parent?_eq_of_node?_eq hnode ▸ hp)
  have hp' : p ≠ d.fresh := by
    rintro rfl
    simp [children, node?_fresh] at hin
  have hparent : (d.create data).2.node? p = d.node? p := by rw [node?_create, if_neg hp']
  exact children_eq_of_node?_eq hparent ▸ hin

/-- A node gets a parent, whose children stay and are joined by the node. -/
theorem attach (children : List NodeId) (h : d.Linked) {parent child : NodeId} {n : Node}
    (hn : d.node? parent = some n) (hne : child ≠ parent) (hstay : ∀ c ∈ n.children, c ∈ children)
    (hchild : child ∈ children) (he : ∀ id, e.node? id =
      if id = parent then some { n with children }
      else if id = child then (d.node? child).map fun n ↦ { n with parent? := some parent }
      else d.node? id) : e.Linked := by
  have hchildren : ∀ p, p ≠ parent → e.children p = d.children p := by
    intro p hp
    rw [Document.children, Document.children, he, if_neg hp]
    split
    · next heq =>
      subst heq
      cases d.node? p <;> rfl
    · rfl
  have hparent : e.children parent = children := by
    rw [Document.children, he, if_pos rfl]
    rfl
  intro id p hp
  by_cases hid : id = child
  · subst hid
    have hp' : p = parent := by
      rw [parent?, he, if_neg hne, if_pos rfl] at hp
      cases hnode : d.node? id with
      | none => simp [hnode] at hp
      | some m => simpa [hnode] using hp.symm
    rw [hp', hparent]
    exact hchild
  · have hold : d.parent? id = some p := by
      rw [parent?, he] at hp
      by_cases hidp : id = parent
      · rw [if_pos hidp] at hp
        rw [parent?, hidp, hn]
        exact hp
      · rwa [if_neg hidp, if_neg hid] at hp
    have hin := h id p hold
    by_cases hpp : p = parent
    · subst hpp
      rw [hparent]
      exact hstay id (by simpa [Document.children, hn] using hin)
    · rwa [hchildren p hpp]

/-- A node leaves its parent, whose other children stay. -/
theorem release (h : d.Linked) {parent child : NodeId} {n m : Node} (hn : d.node? parent = some n)
    (hm : d.node? child = some m) (hne : child ≠ parent) (he : ∀ id, e.node? id =
      if id = child then some { m with parent? := none }
      else if id = parent then some { n with children := n.children.filter (· ≠ child) }
      else d.node? id) : e.Linked := by
  intro id p hp
  have hid : id ≠ child := by
    rintro rfl
    simp [parent?, he] at hp
  have hold : d.parent? id = some p := by
    rw [parent?, he, if_neg hid] at hp
    by_cases hidp : id = parent
    · rw [if_pos hidp] at hp
      rw [parent?, hidp, hn]
      exact hp
    · rwa [if_neg hidp] at hp
  have hin := h id p hold
  rw [Document.children, he]
  by_cases hpc : p = child
  · subst hpc
    simpa [Document.children, hm] using hin
  · rw [if_neg hpc]
    split
    · next heq =>
      subst heq
      simpa [Document.children, hn, hid] using hin
    · exact hin

end Linked

/-! ### Pages -/

def HasLeaf (d : Document) (parent : NodeId) (l : Leaf) : Prop :=
  d.node? l.id = some ⟨l.content.data, some parent, []⟩

structure HasBlock (d : Document) (parent? : Option NodeId) (b : Paragraph) : Prop where
  node : d.node? b.id = some ⟨.element paragraphTag [], parent?, b.leaves.map Leaf.id⟩
  leaves : ∀ l ∈ b.leaves, d.HasLeaf b.id l

/-- What a document of lines holds. No node outside of the page is in the tree, for it could only
be there by a parent that does not have it among its children. -/
structure Shows (d : Document) (page : List Paragraph) : Prop where
  root : d.node? d.root = some ⟨.element rootTag [], none, page.map Paragraph.id⟩
  blocks : ∀ b ∈ page, d.HasBlock (some d.root) b
  nodup : (d.root :: page.flatMap Paragraph.ids).Nodup
  linked : d.Linked

theorem HasLeaf.congr {parent : NodeId} {l : Leaf} (h : d.HasLeaf parent l) (hframe : e.node? l.id = d.node? l.id) :
    e.HasLeaf parent l := hframe.trans h

theorem HasBlock.congr {parent? : Option NodeId} {b : Paragraph} (h : d.HasBlock parent? b)
    (hframe : ∀ id ∈ b.ids, e.node? id = d.node? id) : e.HasBlock parent? b where
  node := (hframe _ (List.mem_cons_self ..)).trans h.node
  leaves l hl := (h.leaves l hl).congr (hframe _ (List.mem_cons_of_mem _ (List.mem_map_of_mem hl)))

theorem HasBlock.known {parent? : Option NodeId} {b : Paragraph} (h : d.HasBlock parent? b) :
    ∀ id ∈ b.ids, d.node? id ≠ none := by
  intro id hid
  rcases List.mem_cons.1 hid with rfl | hid
  · simp [h.node]
  · obtain ⟨l, hl, rfl⟩ := List.mem_map.1 hid
    have := h.leaves l hl
    rw [HasLeaf] at this
    simp [this]

namespace Shows

variable {page above below old new : List Paragraph} {b : Paragraph} {l : Leaf}

theorem known (h : d.Shows page) : ∀ id ∈ page.flatMap Paragraph.ids, d.node? id ≠ none := by
  intro id hid
  obtain ⟨b, hb, hid⟩ := List.mem_flatMap.1 hid
  exact (h.blocks b hb).known id hid

theorem root_notMem (h : d.Shows page) (hb : b ∈ page) : d.root ∉ b.ids := fun hid ↦
  (List.nodup_cons.1 h.nodup).1 (List.mem_flatMap.2 ⟨b, hb, hid⟩)

theorem block_ne_root (h : d.Shows page) (hb : b ∈ page) : b.id ≠ d.root := fun heq ↦
  h.root_notMem hb (heq ▸ List.mem_cons_self ..)

theorem leaf_ne_root (h : d.Shows page) (hb : b ∈ page) (hl : l ∈ b.leaves) : l.id ≠ d.root := fun heq ↦
  h.root_notMem hb (heq ▸ List.mem_cons_of_mem _ (List.mem_map_of_mem hl))

theorem nodup_ids (h : d.Shows page) (hb : b ∈ page) : b.ids.Nodup := by
  have := (List.nodup_cons.1 h.nodup).2
  rw [List.nodup_flatMap] at this
  exact this.1 b hb

theorem nodup_leaves (h : d.Shows page) (hb : b ∈ page) : (b.leaves.map Leaf.id).Nodup :=
  (List.nodup_cons.1 (h.nodup_ids hb)).2

theorem leaf_ne_block (h : d.Shows page) (hb : b ∈ page) (hl : l ∈ b.leaves) : l.id ≠ b.id := fun heq ↦
  (List.nodup_cons.1 (h.nodup_ids hb)).1 (heq ▸ List.mem_map_of_mem hl)

theorem nodup_blocks (h : d.Shows page) : (page.map Paragraph.id).Nodup := by
  have hpair := (List.nodup_flatMap.1 (List.nodup_cons.1 h.nodup).2).2
  rw [List.Nodup, List.pairwise_map]
  refine hpair.imp fun hdisjoint heq ↦ ?_
  exact hdisjoint (List.mem_cons_self ..) (heq ▸ List.mem_cons_self ..)

/-- A document shows the page that another one shows, when it has the nodes of the page. -/
theorem congr (h : d.Shows page) (hserial : e.serial = d.serial) (hlinked : e.Linked)
    (hframe : ∀ id ∈ d.root :: page.flatMap Paragraph.ids, e.node? id = d.node? id) : e.Shows page := by
  have hsame : e.root = d.root := by simp [Document.root, handle, hserial]
  refine ⟨?_, fun b hb ↦ ?_, hsame ▸ h.nodup, hlinked⟩
  · rw [hsame, hframe _ (List.mem_cons_self ..), h.root]
  · rw [hsame]
    exact (h.blocks b hb).congr fun id hid ↦
      hframe id (List.mem_cons_of_mem _ (List.mem_flatMap.2 ⟨b, hb, hid⟩))

/-- Other blocks stand in the place of some. Their nodes were in these or outside of the page, and
nothing of the page but these blocks and the root was changed. -/
theorem swap (new : List Paragraph) (h : d.Shows (above ++ old ++ below)) (hserial : e.serial = d.serial) (hlinked : e.Linked)
    (hroot : e.node? d.root = some ⟨.element rootTag [], none, (above ++ new ++ below).map Paragraph.id⟩)
    (hframe : ∀ id ∈ (above ++ old ++ below).flatMap Paragraph.ids, id ≠ d.root → id ∉ old.flatMap Paragraph.ids →
      e.node? id = d.node? id)
    (hnew : ∀ b ∈ new, e.HasBlock (some d.root) b) (hnodup : (new.flatMap Paragraph.ids).Nodup)
    (hfresh : ∀ id ∈ new.flatMap Paragraph.ids,
      id ∈ old.flatMap Paragraph.ids ∨ id ∉ d.root :: (above ++ old ++ below).flatMap Paragraph.ids) :
    e.Shows (above ++ new ++ below) := by
  have hsame : e.root = d.root := by simp [Document.root, handle, hserial]
  have hold := h.nodup
  simp only [List.flatMap_append, List.nodup_cons, List.nodup_append, List.mem_append, not_or] at hold
  obtain ⟨⟨⟨hrootAbove, _⟩, hrootBelow⟩, ⟨habove, _, hao⟩, hbelow, hab⟩ := hold
  have hkeep : ∀ b ∈ above ++ below, e.HasBlock (some d.root) b := by
    intro b hb
    have hmem : b ∈ above ++ old ++ below := by
      rcases List.mem_append.1 hb with hb | hb <;> simp [hb]
    refine (h.blocks b hmem).congr fun id hid ↦ hframe id (List.mem_flatMap.2 ⟨b, hmem, hid⟩) ?_ ?_
    · exact fun heq ↦ h.root_notMem hmem (heq ▸ hid)
    · intro hin
      rcases List.mem_append.1 hb with hb | hb
      · exact hao id (List.mem_flatMap.2 ⟨b, hb, hid⟩) id hin rfl
      · exact hab id (.inr hin) id (List.mem_flatMap.2 ⟨b, hb, hid⟩) rfl
  have hdisjoint : ∀ id ∈ new.flatMap Paragraph.ids,
      id ∉ above.flatMap Paragraph.ids ∧ id ∉ below.flatMap Paragraph.ids ∧ id ≠ d.root := by
    intro id hid
    rcases hfresh id hid with hin | hout
    · refine ⟨fun ha ↦ hao id ha id hin rfl, fun hb ↦ hab id (.inr hin) id hb rfl, ?_⟩
      rintro rfl
      contradiction
    · simp only [List.flatMap_append, List.mem_cons, List.mem_append, not_or] at hout
      exact ⟨hout.2.1.1, hout.2.2, hout.1⟩
  refine ⟨hsame ▸ hroot, fun b hb ↦ ?_, ?_, hlinked⟩
  · rw [hsame]
    simp only [List.mem_append] at hb
    rcases hb with (hb | hb) | hb
    · exact hkeep b (List.mem_append_left _ hb)
    · exact hnew b hb
    · exact hkeep b (List.mem_append_right _ hb)
  · rw [hsame]
    simp only [List.flatMap_append, List.nodup_cons, List.nodup_append, List.mem_append, not_or]
    refine ⟨⟨⟨hrootAbove, fun hin ↦ (hdisjoint _ hin).2.2 rfl⟩, hrootBelow⟩, ⟨habove, hnodup, ?_⟩, hbelow, ?_⟩
    · rintro a ha c hc rfl
      exact (hdisjoint a hc).1 ha
    · rintro a (ha | ha) c hc rfl
      · exact hab a (.inl ha) a hc rfl
      · exact (hdisjoint a ha).2.1 hc

variable {left right olds news : List Leaf}

/-- Other leaves stand in the place of some leaves of a block. -/
theorem swapLeaves {bid : NodeId} (news : List Leaf) (h : d.Shows (above ++ ⟨bid, left ++ olds ++ right⟩ :: below))
    (hserial : e.serial = d.serial) (hlinked : e.Linked)
    (hblock : e.node? bid =
      some ⟨.element paragraphTag [], some d.root, (left ++ news ++ right).map Leaf.id⟩)
    (hframe : ∀ id ∈ d.root :: (above ++ ⟨bid, left ++ olds ++ right⟩ :: below).flatMap Paragraph.ids, id ≠ bid →
      id ∉ olds.map Leaf.id → e.node? id = d.node? id)
    (hnew : ∀ l ∈ news, e.HasLeaf bid l) (hnodup : (news.map Leaf.id).Nodup)
    (hfresh : ∀ id ∈ news.map Leaf.id, id ∈ olds.map Leaf.id ∨
      id ∉ d.root :: (above ++ ⟨bid, left ++ olds ++ right⟩ :: below).flatMap Paragraph.ids) :
    e.Shows (above ++ ⟨bid, left ++ news ++ right⟩ :: below) := by
  have hmem : (⟨bid, left ++ olds ++ right⟩ : Paragraph) ∈ above ++ ⟨bid, left ++ olds ++ right⟩ :: below := by simp
  have hsplit : above ++ ⟨bid, left ++ olds ++ right⟩ :: below =
      above ++ [⟨bid, left ++ olds ++ right⟩] ++ below := by simp
  have hids := h.nodup_ids hmem
  simp only [Paragraph.ids, List.nodup_cons, List.map_append, List.nodup_append, List.mem_append, not_or] at hids
  obtain ⟨⟨⟨hbl, hbo⟩, hbr⟩, ⟨hleft, _, hlo⟩, hright, hlr⟩ := hids
  have hin : ∀ id ∈ Paragraph.ids ⟨bid, left ++ olds ++ right⟩,
      id ∈ d.root :: (above ++ ⟨bid, left ++ olds ++ right⟩ :: below).flatMap Paragraph.ids := fun id hid ↦
    List.mem_cons_of_mem _ (List.mem_flatMap.2 ⟨_, hmem, hid⟩)
  have hdisjoint : ∀ id ∈ news.map Leaf.id,
      id ∉ left.map Leaf.id ∧ id ∉ right.map Leaf.id ∧ id ≠ bid := by
    intro id hid
    rcases hfresh id hid with hold | hout
    · refine ⟨fun ha ↦ hlo id ha id hold rfl, fun hb ↦ hlr id (.inr hold) id hb rfl, ?_⟩
      rintro rfl
      contradiction
    · refine ⟨fun ha ↦ hout (hin id ?_), fun hb ↦ hout (hin id ?_), ?_⟩
      · simp [Paragraph.ids, List.mem_map.1 ha]
      · simp [Paragraph.ids, List.mem_map.1 hb]
      · rintro rfl
        exact hout (hin _ (List.mem_cons_self ..))
  have hrootne : d.root ∉ olds.map Leaf.id := fun hroot ↦
    h.root_notMem hmem (List.mem_cons_of_mem _ (by
      simp only [List.map_append, List.mem_append]; exact .inl (.inr hroot)))
  have hbne : bid ≠ d.root := h.block_ne_root hmem
  have hkeep : ∀ l ∈ left ++ right, e.HasLeaf bid l := by
    intro l hl
    have hlmem : l ∈ left ++ olds ++ right := by
      rcases List.mem_append.1 hl with hl | hl <;> simp [hl]
    have hleaf : d.HasLeaf bid l := (h.blocks _ hmem).leaves l hlmem
    refine hleaf.congr (hframe _ (hin _ (List.mem_cons_of_mem _ (List.mem_map_of_mem hlmem))) ?_ ?_)
    · exact h.leaf_ne_block hmem hlmem
    · intro hold
      rcases List.mem_append.1 hl with hl | hl
      · exact hlo _ (List.mem_map_of_mem hl) _ hold rfl
      · exact hlr _ (.inr hold) _ (List.mem_map_of_mem hl) rfl
  have hroot := hframe d.root (List.mem_cons_self ..) hbne.symm hrootne
  rw [hsplit] at h hframe hfresh
  have hshows := h.swap [⟨bid, left ++ news ++ right⟩] hserial hlinked ?_ ?_ ?_ ?_ ?_
  · simpa using hshows
  · rw [hroot, h.root]
    simp
  · intro id hpage _ hid
    simp only [List.flatMap_cons, List.flatMap_nil, List.append_nil, Paragraph.ids, List.mem_cons, List.map_append,
      List.mem_append, not_or] at hid
    exact hframe id (List.mem_cons_of_mem _ hpage) hid.1 hid.2.1.2
  · intro b hb
    obtain rfl := List.mem_singleton.1 hb
    refine ⟨hblock, fun l hl ↦ ?_⟩
    simp only [List.mem_append] at hl
    rcases hl with (hl | hl) | hl
    · exact hkeep l (List.mem_append_left _ hl)
    · exact hnew l hl
    · exact hkeep l (List.mem_append_right _ hl)
  · simp only [List.flatMap_cons, List.flatMap_nil, List.append_nil, Paragraph.ids, List.nodup_cons, List.map_append,
      List.nodup_append, List.mem_append, not_or]
    refine ⟨⟨⟨hbl, fun hold ↦ (hdisjoint _ hold).2.2 rfl⟩, hbr⟩, ⟨hleft, hnodup, ?_⟩, hright, ?_⟩
    · rintro a ha c hc rfl
      exact (hdisjoint a hc).1 ha
    · rintro a (ha | ha) c hc rfl
      · exact hlr a (.inl ha) a hc rfl
      · exact (hdisjoint a ha).2.1 hc
  · intro id hid
    have hcases : id = bid ∨ id ∈ left.map Leaf.id ∨ id ∈ news.map Leaf.id ∨ id ∈ right.map Leaf.id := by
      simpa [Paragraph.ids, or_assoc] using hid
    have hold : id = bid ∨ id ∈ left.map Leaf.id ∨ id ∈ olds.map Leaf.id ∨ id ∈ right.map Leaf.id →
        id ∈ [(⟨bid, left ++ olds ++ right⟩ : Paragraph)].flatMap Paragraph.ids := by
      simp [Paragraph.ids]
    rcases hcases with hid | hid | hid | hid
    · exact .inl (hold (.inl hid))
    · exact .inl (hold (.inr (.inl hid)))
    · rcases hfresh id hid with hid | hout
      · exact .inl (hold (.inr (.inr (.inl hid))))
      · exact .inr hout
    · exact .inl (hold (.inr (.inr (.inr hid))))

theorem notMem_of_unknown {id : NodeId} (h : d.Shows page) (hid : d.node? id = none) :
    id ∉ d.root :: page.flatMap Paragraph.ids := by
  rintro (_ | ⟨_, hin⟩)
  · simp [h.root] at hid
  · exact h.known id hin hid

/-- A node without a parent, other than the root, stands outside of the page. -/
theorem notMem_of_orphan {id : NodeId} (h : d.Shows page) (hroot : id ≠ d.root) (hid : d.parent? id = none) :
    id ∉ d.root :: page.flatMap Paragraph.ids := by
  intro hin
  rcases List.mem_cons.1 hin with hin | hin
  · exact hroot hin
  · obtain ⟨b, hb, hin⟩ := List.mem_flatMap.1 hin
    rcases List.mem_cons.1 hin with rfl | hin
    · simp [parent?, (h.blocks b hb).node] at hid
    · obtain ⟨l, hl, rfl⟩ := List.mem_map.1 hin
      have hleaf := (h.blocks b hb).leaves l hl
      rw [HasLeaf] at hleaf
      simp [parent?, hleaf] at hid

/-- A node below one outside of the page stands outside of it. -/
theorem notMem_of_parent {id top : NodeId} (h : d.Shows page) (hid : d.parent? id = some top)
    (htop : top ∉ d.root :: page.flatMap Paragraph.ids) : id ∉ d.root :: page.flatMap Paragraph.ids := by
  intro hin
  rcases List.mem_cons.1 hin with rfl | hin
  · simp [parent?, h.root] at hid
  · obtain ⟨b, hb, hin⟩ := List.mem_flatMap.1 hin
    rcases List.mem_cons.1 hin with rfl | hin
    · have heq : d.root = top := by simpa [parent?, (h.blocks b hb).node] using hid
      exact htop (heq ▸ List.mem_cons_self ..)
    · obtain ⟨l, hl, rfl⟩ := List.mem_map.1 hin
      have hleaf := (h.blocks b hb).leaves l hl
      rw [HasLeaf] at hleaf
      have heq : b.id = top := by simpa [parent?, hleaf] using hid
      exact htop (heq ▸ List.mem_cons_of_mem _ (List.mem_flatMap.2 ⟨b, hb, List.mem_cons_self ..⟩))

theorem notMem_of_hasBlock {new : Paragraph} (h : d.Shows page) (hnew : d.HasBlock none new)
    (hroot : new.id ≠ d.root) : ∀ id ∈ new.ids, id ∉ d.root :: page.flatMap Paragraph.ids := by
  have htop := h.notMem_of_orphan hroot (show d.parent? new.id = none by simp [parent?, hnew.node])
  intro id hid
  rcases List.mem_cons.1 hid with rfl | hid
  · exact htop
  · obtain ⟨l, hl, rfl⟩ := List.mem_map.1 hid
    have hleaf := hnew.leaves l hl
    rw [HasLeaf] at hleaf
    exact h.notMem_of_parent (by simp [parent?, hleaf]) htop

end Shows

end Document

end Stencil

/-! ### Ways through a page -/

namespace Stencil.Document

variable {d : Document} {page above below : List Paragraph} {b : Paragraph} {l : Leaf} {bid : NodeId} {left right : List Leaf}

namespace Shows

section Nodes

variable (h : d.Shows page)

include h

theorem parent?_root : d.parent? d.root = none := by simp [parent?, h.root]

theorem children_root : d.children d.root = page.map Paragraph.id := by simp [children, h.root]

theorem size_pos : 0 < d.size := lt_of_le_of_lt (Nat.zero_le _) (index_lt_size h.root)

theorem two_le_size (hb : b ∈ page) : 2 ≤ d.size := by
  have hsize := index_lt_size (h.blocks b hb).node
  have hne : b.id.index ≠ 0 := fun heq ↦
    h.block_ne_root hb (NodeId.ext (document_eq (h.blocks b hb).node) heq)
  omega

theorem parent?_block (hb : b ∈ page) : d.parent? b.id = some d.root := by
  simp [parent?, (h.blocks b hb).node]

theorem children_block (hb : b ∈ page) : d.children b.id = b.leaves.map Leaf.id := by
  simp [children, (h.blocks b hb).node]

theorem tag?_block (hb : b ∈ page) : d.tag? b.id = some paragraphTag := by
  simp [tag?, data?, (h.blocks b hb).node]

theorem text?_block (hb : b ∈ page) : d.text? b.id = none := by
  simp [text?, data?, (h.blocks b hb).node]

theorem node?_leaf (hb : b ∈ page) (hl : l ∈ b.leaves) :
    d.node? l.id = some ⟨l.content.data, some b.id, []⟩ := (h.blocks b hb).leaves l hl

theorem parent?_leaf (hb : b ∈ page) (hl : l ∈ b.leaves) : d.parent? l.id = some b.id := by
  simp [parent?, h.node?_leaf hb hl]

theorem children_leaf (hb : b ∈ page) (hl : l ∈ b.leaves) : d.children l.id = [] := by
  simp [children, h.node?_leaf hb hl]

theorem ancestors_root : d.ancestors d.root = [] := by
  rw [ancestors]
  cases d.size with
  | zero => rfl
  | succ n => rw [climb, h.parent?_root]

theorem climb_block (hb : b ∈ page) (n : ℕ) : d.climb (n + 1) b.id = [d.root] := by
  cases n <;> simp only [climb, h.parent?_block hb, h.parent?_root]

theorem ancestors_block (hb : b ∈ page) : d.ancestors b.id = [d.root] := by
  obtain ⟨n, hn⟩ : ∃ n, d.size = n + 1 := ⟨d.size - 1, by have := h.size_pos; omega⟩
  rw [ancestors, hn, h.climb_block hb]

theorem ancestors_leaf (hb : b ∈ page) (hl : l ∈ b.leaves) : d.ancestors l.id = [b.id, d.root] := by
  obtain ⟨n, hn⟩ : ∃ n, d.size = n + 1 + 1 := ⟨d.size - 2, by have := h.two_le_size hb; omega⟩
  have hclimb : d.climb (n + 1 + 1) l.id = b.id :: d.climb (n + 1) b.id := by
    simp only [climb, h.parent?_leaf hb hl]
  rw [ancestors, hn, hclimb, h.climb_block hb]

theorem isAttached_block (hb : b ∈ page) : d.isAttached b.id = true := by
  simp [isAttached, h.ancestors_block hb]

theorem isAttached_leaf (hb : b ∈ page) (hl : l ∈ b.leaves) : d.isAttached l.id = true := by
  simp [isAttached, h.ancestors_leaf hb hl]

end Nodes

/-! ### Siblings -/

theorem notMem_above (h : d.Shows (above ++ b :: below)) : b.id ∉ above.map Paragraph.id := by
  have hnodup := h.nodup_blocks
  rw [List.map_append, List.map_cons, List.nodup_append] at hnodup
  exact fun hin ↦ hnodup.2.2 _ hin _ (List.mem_cons_self ..) rfl

theorem notMem_left (h : d.Shows (above ++ ⟨bid, left ++ l :: right⟩ :: below)) : l.id ∉ left.map Leaf.id := by
  have hnodup := h.nodup_leaves (b := ⟨bid, left ++ l :: right⟩) (by simp)
  rw [List.map_append, List.map_cons, List.nodup_append] at hnodup
  exact fun hin ↦ hnodup.2.2 _ hin _ (List.mem_cons_self ..) rfl

theorem nextSibling?_block (h : d.Shows (above ++ b :: below)) :
    d.nextSibling? b.id = (below.map Paragraph.id).head? := by
  have hb : b ∈ above ++ b :: below := by simp
  rw [nextSibling?, h.parent?_block hb, Option.bind_some, h.children_root, List.map_append, List.map_cons]
  exact following?_append h.notMem_above

theorem nextSibling?_leaf (h : d.Shows (above ++ ⟨bid, left ++ l :: right⟩ :: below)) :
    d.nextSibling? l.id = (right.map Leaf.id).head? := by
  have hb : (⟨bid, left ++ l :: right⟩ : Paragraph) ∈ above ++ ⟨bid, left ++ l :: right⟩ :: below := by simp
  rw [nextSibling?, h.parent?_leaf hb (by simp), Option.bind_some, h.children_block hb, List.map_append,
    List.map_cons]
  exact following?_append h.notMem_left

theorem nextSibling?_root (h : d.Shows page) : d.nextSibling? d.root = none := by
  rw [nextSibling?, h.parent?_root, Option.bind_none]

theorem nextAfter?_block (h : d.Shows (above ++ b :: below)) :
    d.nextAfter? b.id = (below.map Paragraph.id).head? := by
  have hb : b ∈ above ++ b :: below := by simp
  rw [nextAfter?, h.ancestors_block hb, List.findSome?_cons, h.nextSibling?_block, List.findSome?_cons,
    h.nextSibling?_root]
  cases (below.map Paragraph.id).head? <;> rfl

theorem nextAfter?_leaf (h : d.Shows (above ++ ⟨bid, left ++ l :: right⟩ :: below)) :
    d.nextAfter? l.id = ((right.map Leaf.id).head? <|> (below.map Paragraph.id).head?) := by
  have hb : (⟨bid, left ++ l :: right⟩ : Paragraph) ∈ above ++ ⟨bid, left ++ l :: right⟩ :: below := by simp
  have hsibling := h.nextSibling?_block
  rw [nextAfter?, h.ancestors_leaf hb (by simp), List.findSome?_cons, h.nextSibling?_leaf, List.findSome?_cons,
    hsibling, List.findSome?_cons, h.nextSibling?_root]
  cases (right.map Leaf.id).head? <;> cases (below.map Paragraph.id).head? <;> rfl

theorem nextInOrder?_root (h : d.Shows page) : d.nextInOrder? d.root = (page.map Paragraph.id).head? := by
  have hnone : d.nextAfter? d.root = none := by
    rw [nextAfter?, h.ancestors_root, List.findSome?_cons, h.nextSibling?_root, List.findSome?_nil]
  rw [nextInOrder?, hnone, firstChild?, h.children_root]
  cases (page.map Paragraph.id).head? <;> rfl

theorem nextInOrder?_block (h : d.Shows (above ++ b :: below)) :
    d.nextInOrder? b.id = ((b.leaves.map Leaf.id).head? <|> (below.map Paragraph.id).head?) := by
  rw [nextInOrder?, firstChild?, h.children_block (by simp), h.nextAfter?_block]

theorem nextInOrder?_leaf (h : d.Shows (above ++ ⟨bid, left ++ l :: right⟩ :: below)) :
    d.nextInOrder? l.id = ((right.map Leaf.id).head? <|> (below.map Paragraph.id).head?) := by
  have hb : (⟨bid, left ++ l :: right⟩ : Paragraph) ∈ above ++ ⟨bid, left ++ l :: right⟩ :: below := by simp
  rw [nextInOrder?, firstChild?, h.children_leaf hb (by simp), h.nextAfter?_leaf]
  rfl

theorem indexInParent?_block (h : d.Shows (above ++ b :: below)) :
    d.indexInParent? b.id = some above.length := by
  rw [indexInParent?, h.parent?_block (by simp), Option.bind_some, h.children_root, List.map_append, List.map_cons,
    findIdx?_append h.notMem_above, List.length_map]

theorem indexInParent?_leaf (h : d.Shows (above ++ ⟨bid, left ++ l :: right⟩ :: below)) :
    d.indexInParent? l.id = some left.length := by
  have hb : (⟨bid, left ++ l :: right⟩ : Paragraph) ∈ above ++ ⟨bid, left ++ l :: right⟩ :: below := by simp
  rw [indexInParent?, h.parent?_leaf hb (by simp), Option.bind_some, h.children_block hb, List.map_append,
    List.map_cons, findIdx?_append h.notMem_left, List.length_map]

/-! ### Nodes in the tree -/

theorem mem_of_parent {id p : NodeId} (h : d.Shows page) (hp : p ∈ d.root :: page.flatMap Paragraph.ids)
    (hid : d.parent? id = some p) : id ∈ page.flatMap Paragraph.ids := by
  have hin := h.linked id p hid
  rcases List.mem_cons.1 hp with rfl | hp
  · rw [h.children_root] at hin
    obtain ⟨b, hb, rfl⟩ := List.mem_map.1 hin
    exact List.mem_flatMap.2 ⟨b, hb, List.mem_cons_self ..⟩
  · obtain ⟨b, hb, hp⟩ := List.mem_flatMap.1 hp
    rcases List.mem_cons.1 hp with rfl | hp
    · rw [h.children_block hb] at hin
      exact List.mem_flatMap.2 ⟨b, hb, List.mem_cons_of_mem _ hin⟩
    · obtain ⟨l, hl, rfl⟩ := List.mem_map.1 hp
      rw [h.children_leaf hb hl] at hin
      contradiction

/-- The nodes of the tree are those of the page. -/
theorem isAttached_iff {id : NodeId} (h : d.Shows page) :
    d.isAttached id = true ↔ id ∈ d.root :: page.flatMap Paragraph.ids := by
  have hclimb : ∀ (n : ℕ) (id : NodeId), (d.climb n id).getLast? = some d.root →
      id ∈ page.flatMap Paragraph.ids := by
    intro n
    induction n with
    | zero =>
      intro id hlast
      simp [climb] at hlast
    | succ n ih =>
      intro id hlast
      rw [climb] at hlast
      cases hparent : d.parent? id with
      | none => simp [hparent] at hlast
      | some p =>
        simp only [hparent, List.getLast?_cons] at hlast
        refine h.mem_of_parent ?_ hparent
        cases hrest : (d.climb n p).getLast? with
        | none =>
          have hp : p = d.root := by simpa [hrest] using hlast
          exact hp ▸ List.mem_cons_self ..
        | some top =>
          have htop : top = d.root := by simpa [hrest] using hlast
          exact List.mem_cons_of_mem _ (ih p (htop ▸ hrest))
  constructor
  · intro hattached
    have hcases : id = d.root ∨ (d.ancestors id).getLast? = some d.root := by simpa [isAttached] using hattached
    rcases hcases with rfl | hlast
    · exact List.mem_cons_self ..
    · exact List.mem_cons_of_mem _ (hclimb _ _ hlast)
  · intro hid
    rcases List.mem_cons.1 hid with rfl | hid
    · simp [isAttached]
    · obtain ⟨b, hb, hid⟩ := List.mem_flatMap.1 hid
      rcases List.mem_cons.1 hid with rfl | hid
      · exact h.isAttached_block hb
      · obtain ⟨l, hl, rfl⟩ := List.mem_map.1 hid
        exact h.isAttached_leaf hb hl

/-- The nodes of a block that was cut off are out of the tree. -/
theorem isAttached_cut {id : NodeId} (h : d.Shows (above ++ b :: below)) (he : e.Shows (above ++ below))
    (hgrows : d.Grows e) (hid : id ∈ b.ids) : e.isAttached id = false := by
  rw [← Bool.not_eq_true, he.isAttached_iff, hgrows.root]
  have hnodup := h.nodup
  rw [List.flatMap_append, List.flatMap_cons, List.nodup_cons, List.nodup_append] at hnodup
  obtain ⟨hroot, _, hrest, hfront⟩ := hnodup
  intro hin
  rcases List.mem_cons.1 hin with rfl | hin
  · exact hroot (List.mem_append_right _ (List.mem_append_left _ hid))
  · rw [List.flatMap_append] at hin
    rcases List.mem_append.1 hin with hin | hin
    · exact hfront _ hin _ (List.mem_append_left _ hid) rfl
    · exact (List.nodup_append.1 hrest).2.2 _ hid _ hin rfl

end Shows

end Stencil.Document
