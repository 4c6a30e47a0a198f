import Stencil.Proofs.Document.Page
/-!
Edits of single nodes on pages.
-/

namespace Stencil

def Image.attrs (image : Image) : Entries String :=
  [("name", image.name), ("src", image.source), ("width", String.ofList (Decimal.natText image.width)),
    ("height", String.ofList (Decimal.natText image.height))]

namespace Document

variable {d : Document} {page above below : List Paragraph} {b new : Paragraph} {l : Leaf} {bid n : NodeId}
  {left right : List Leaf} {c : Content}

namespace Shows

/-! ### Texts -/

theorem putText {id : NodeId} {s : String}
    (h : d.Shows (above ++ ⟨bid, left ++ ⟨id, .text s⟩ :: right⟩ :: below)) (t : String) :
    (d.putText id t).Shows (above ++ ⟨bid, left ++ ⟨id, .text t⟩ :: right⟩ :: below) := by
  have hb : (⟨bid, left ++ ⟨id, .text s⟩ :: right⟩ : Paragraph) ∈
    above ++ ⟨bid, left ++ ⟨id, .text s⟩ :: right⟩ :: below := by simp
  have hnode := h.node?_leaf hb (l := ⟨id, .text s⟩) (by simp)
  have hne : bid ≠ id := (h.leaf_ne_block hb (l := ⟨id, .text s⟩) (by simp)).symm
  have h' : d.Shows (above ++ ⟨bid, left ++ [⟨id, .text s⟩] ++ right⟩ :: below) := by simpa using h
  have hshows := h'.swapLeaves (e := d.putText id t) [⟨id, .text t⟩] (by simp [Document.putText])
    (h.linked.modify_data id fun _ ↦ ⟨rfl, rfl⟩) ?_ ?_ ?_ ?_ ?_
  · simpa using hshows
  · rw [Document.putText, node?_modify_of_ne hne, (h.blocks _ hb).node]
    simp
  · intro other _ _ hother
    rw [Document.putText, node?_modify_of_ne (by simpa using hother)]
  · intro l hl
    obtain rfl := List.mem_singleton.1 hl
    rw [HasLeaf, Document.putText, node?_modify_self, hnode]
    rfl
  · simp
  · intro other hother
    exact .inl hother

theorem setText {id : NodeId} {s : String}
    (h : d.Shows (above ++ ⟨bid, left ++ ⟨id, .text s⟩ :: right⟩ :: below)) (t : String) :
    ∃ e, d.setText id t = .ok e ∧ e.Shows (above ++ ⟨bid, left ++ ⟨id, .text t⟩ :: right⟩ :: below) ∧
      Grows d e := by
  have hnode := h.node?_leaf (b := ⟨bid, left ++ ⟨id, .text s⟩ :: right⟩) (l := ⟨id, .text s⟩) (by simp) (by simp)
  have htext : d.isText id = true := by simp [isText, text?, data?, hnode, Content.data]
  refine ⟨d.putText id t, ?_, h.putText t, Grows.modify _ _ _⟩
  simp [Document.setText, check_ok hnode, htext, bind, Except.bind]

/-! ### Insertions -/

theorem checkInsertable_root (h : d.Shows page) {node : Node} (hn : d.node? n = some node) (hroot : n ≠ d.root)
    (horphan : node.parent? = none) : d.checkInsertable d.root n = .ok () := by
  have hcontains : d.contains n d.root = false := by simp [contains, h.ancestors_root, hroot.symm]
  have htext : d.isText d.root = false := by simp [isText, text?, data?, h.root]
  simp [checkInsertable, check_ok h.root, check_ok hn, hroot, parent?_of_node hn, horphan, hcontains, htext, bind,
    Except.bind]

theorem checkInsertable_block (h : d.Shows page) (hb : b ∈ page) {node : Node} (hn : d.node? n = some node)
    (hroot : n ≠ d.root) (horphan : node.parent? = none) : d.checkInsertable b.id n = .ok () := by
  have hout := h.notMem_of_orphan hroot ((parent?_of_node hn).trans horphan)
  have hne : n ≠ b.id := fun heq ↦
    hout (List.mem_cons_of_mem _ (List.mem_flatMap.2 ⟨b, hb, heq ▸ List.mem_cons_self ..⟩))
  have hcontains : d.contains n b.id = false := by simp [contains, h.ancestors_block hb, hroot, hne.symm]
  have htext : d.isText b.id = false := by simp [isText, h.text?_block hb]
  simp [checkInsertable, check_ok (h.blocks b hb).node, check_ok hn, hroot, parent?_of_node hn, horphan,
    hcontains, htext, bind, Except.bind]

theorem link_leaf (h : d.Shows (above ++ ⟨bid, left ++ right⟩ :: below))
    (hn : d.node? n = some ⟨c.data, none, []⟩) (hroot : n ≠ d.root) :
    (d.link bid n ((left ++ ⟨n, c⟩ :: right).map Leaf.id)).Shows
      (above ++ ⟨bid, left ++ ⟨n, c⟩ :: right⟩ :: below) := by
  have hb : (⟨bid, left ++ right⟩ : Paragraph) ∈ above ++ ⟨bid, left ++ right⟩ :: below := by simp
  have hout := h.notMem_of_orphan hroot (parent?_of_node hn)
  have hne : n ≠ bid := fun heq ↦
    hout (List.mem_cons_of_mem _ (List.mem_flatMap.2 ⟨_, hb, heq ▸ List.mem_cons_self ..⟩))
  have h' : d.Shows (above ++ ⟨bid, left ++ [] ++ right⟩ :: below) := by simpa using h
  have hlinked := h.linked.attach ((left ++ ⟨n, c⟩ :: right).map Leaf.id) (h.blocks _ hb).node hne
    (fun x hx ↦ by simp only [List.map_append, List.map_cons, List.mem_append, List.mem_cons] at hx ⊢; tauto)
    (by simp) (node?_link (h.blocks _ hb).node hne _)
  have hshows := h'.swapLeaves (e := d.link bid n ((left ++ ⟨n, c⟩ :: right).map Leaf.id)) [⟨n, c⟩]
    (by simp [link]) hlinked ?_ ?_ ?_ ?_ ?_
  · simpa using hshows
  · rw [link, node?_modify_self, node?_modify_of_ne hne.symm, (h.blocks _ hb).node]
    simp
  · intro id hid hidb _
    have hidn : id ≠ n := fun heq ↦ hout (by simpa [heq] using hid)
    rw [link, node?_modify_of_ne hidb, node?_modify_of_ne hidn]
  · intro l hl
    obtain rfl := List.mem_singleton.1 hl
    rw [HasLeaf, link, node?_modify_of_ne hne, node?_modify_self, hn]
    rfl
  · simp
  · intro id hid
    obtain rfl : id = n := by simpa using hid
    exact .inr (by simpa using hout)

theorem link_block (h : d.Shows (above ++ below)) (hnew : d.HasBlock none new)
    (hnodup : new.ids.Nodup) (hroot : new.id ≠ d.root) :
    (d.link d.root new.id ((above ++ new :: below).map Paragraph.id)).Shows (above ++ new :: below) := by
  have hout := h.notMem_of_hasBlock hnew hroot
  have h' : d.Shows (above ++ [] ++ below) := by simpa using h
  have hlinked := h.linked.attach ((above ++ new :: below).map Paragraph.id) h.root hroot
    (fun x hx ↦ by simp only [List.map_append, List.map_cons, List.mem_append, List.mem_cons] at hx ⊢; tauto)
    (by simp) (node?_link h.root hroot _)
  have hshows := h'.swap (e := d.link d.root new.id ((above ++ new :: below).map Paragraph.id)) [new]
    (by simp [link]) hlinked ?_ ?_ ?_ ?_ ?_
  · simpa using hshows
  · rw [link, node?_modify_self, node?_modify_of_ne hroot.symm, h.root]
    simp
  · intro id hid hidroot _
    have hidn : id ≠ new.id := fun heq ↦
      hout _ (List.mem_cons_self ..) (List.mem_cons_of_mem _ (by simpa [heq] using hid))
    rw [link, node?_modify_of_ne hidroot, node?_modify_of_ne hidn]
  · intro b hb
    obtain rfl := List.mem_singleton.1 hb
    refine ⟨?_, fun l hl ↦ ?_⟩
    · rw [link, node?_modify_of_ne hroot, node?_modify_self, hnew.node]
      rfl
    · have hlid : l.id ∈ b.ids := List.mem_cons_of_mem _ (List.mem_map_of_mem hl)
      have hlroot : l.id ≠ d.root := fun heq ↦ hout _ hlid (heq ▸ List.mem_cons_self ..)
      have hlb : l.id ≠ b.id := fun heq ↦ (List.nodup_cons.1 hnodup).1 (heq ▸ List.mem_map_of_mem hl)
      rw [HasLeaf, link, node?_modify_of_ne hlroot, node?_modify_of_ne hlb]
      exact hnew.leaves l hl
  · simpa using hnodup
  · intro id hid
    have hid' : id ∈ new.ids := by simpa using hid
    exact .inr (by simpa using hout id hid')

theorem grows_link (d : Document) (parent id : NodeId) (children : List NodeId) :
    Grows d (d.link parent id children) := (Grows.modify _ _ _).trans (Grows.modify _ _ _)

theorem insertBefore_leaf (h : d.Shows (above ++ ⟨bid, left ++ l :: right⟩ :: below))
    (hn : d.node? n = some ⟨c.data, none, []⟩) (hroot : n ≠ d.root) :
    ∃ e, d.insertBefore l.id n = .ok e ∧
      e.Shows (above ++ ⟨bid, left ++ ⟨n, c⟩ :: l :: right⟩ :: below) ∧ Grows d e := by
  have hb : (⟨bid, left ++ l :: right⟩ : Paragraph) ∈ above ++ ⟨bid, left ++ l :: right⟩ :: below := by simp
  refine ⟨_, ?_, h.link_leaf hn hroot, grows_link _ _ _ _⟩
  have hcheck := h.checkInsertable_block hb hn hroot rfl
  simp only [insertBefore, insertBeside, check_ok (h.node?_leaf hb (l := l) (by simp)),
    h.parent?_leaf hb (l := l) (by simp), hcheck, bind, Except.bind, h.children_block hb]
  rw [List.map_append, List.map_cons, putBefore_append h.notMem_left, List.map_append, List.map_cons, List.map_cons]

theorem insertAfter_leaf (h : d.Shows (above ++ ⟨bid, left ++ l :: right⟩ :: below))
    (hn : d.node? n = some ⟨c.data, none, []⟩) (hroot : n ≠ d.root) :
    ∃ e, d.insertAfter l.id n = .ok e ∧
      e.Shows (above ++ ⟨bid, left ++ l :: ⟨n, c⟩ :: right⟩ :: below) ∧ Grows d e := by
  have hb : (⟨bid, left ++ l :: right⟩ : Paragraph) ∈ above ++ ⟨bid, left ++ l :: right⟩ :: below := by simp
  have h' : d.Shows (above ++ ⟨bid, (left ++ [l]) ++ right⟩ :: below) := by simpa using h
  refine ⟨_, ?_, by simpa using h'.link_leaf hn hroot, grows_link _ _ _ _⟩
  have hcheck := h.checkInsertable_block hb hn hroot rfl
  simp only [insertAfter, insertBeside, check_ok (h.node?_leaf hb (l := l) (by simp)),
    h.parent?_leaf hb (l := l) (by simp), hcheck, bind, Except.bind, h.children_block hb]
  rw [List.map_append, List.map_cons, putBehind_append h.notMem_left]

theorem insertBefore_block (h : d.Shows (above ++ b :: below)) (hnew : d.HasBlock none new) (hnodup : new.ids.Nodup)
    (hroot : new.id ≠ d.root) :
    ∃ e, d.insertBefore b.id new.id = .ok e ∧ e.Shows (above ++ new :: b :: below) ∧ Grows d e := by
  have hb : b ∈ above ++ b :: below := by simp
  refine ⟨_, ?_, h.link_block hnew hnodup hroot, grows_link _ _ _ _⟩
  have hcheck := h.checkInsertable_root hnew.node hroot rfl
  simp only [insertBefore, insertBeside, check_ok (h.blocks b hb).node, h.parent?_block hb, hcheck, bind, Except.bind,
    h.children_root]
  rw [List.map_append, List.map_cons, putBefore_append h.notMem_above, List.map_append, List.map_cons, List.map_cons]

theorem insertAfter_block (h : d.Shows (above ++ b :: below)) (hnew : d.HasBlock none new) (hnodup : new.ids.Nodup)
    (hroot : new.id ≠ d.root) :
    ∃ e, d.insertAfter b.id new.id = .ok e ∧ e.Shows (above ++ b :: new :: below) ∧ Grows d e := by
  have hb : b ∈ above ++ b :: below := by simp
  have h' : d.Shows ((above ++ [b]) ++ below) := by simpa using h
  refine ⟨_, ?_, by simpa using h'.link_block hnew hnodup hroot, grows_link _ _ _ _⟩
  have hcheck := h.checkInsertable_root hnew.node hroot rfl
  simp only [insertAfter, insertBeside, check_ok (h.blocks b hb).node, h.parent?_block hb, hcheck, bind, Except.bind,
    h.children_root]
  rw [List.map_append, List.map_cons, putBehind_append h.notMem_above]

theorem appendChild_leaf (h : d.Shows (above ++ b :: below)) (hn : d.node? n = some ⟨c.data, none, []⟩)
    (hroot : n ≠ d.root) : ∃ e, d.appendChild b.id n = .ok e ∧
      e.Shows (above ++ ⟨b.id, b.leaves ++ [⟨n, c⟩]⟩ :: below) ∧ Grows d e := by
  have h' : d.Shows (above ++ ⟨b.id, b.leaves ++ []⟩ :: below) := by simpa using h
  refine ⟨_, ?_, h'.link_leaf hn hroot, grows_link _ _ _ _⟩
  have hb : b ∈ above ++ b :: below := by simp
  simp [appendChild, h.checkInsertable_block hb hn hroot rfl, h.children_block hb, bind, Except.bind]

/-! ### New nodes -/

theorem create (h : d.Shows page) (data : NodeData) : (d.create data).2.Shows page := by
  refine h.congr rfl (h.linked.create data) fun id hid ↦ ?_
  have hne : id ≠ d.fresh := by
    rintro rfl
    exact h.notMem_of_unknown (node?_fresh d) hid
  rw [node?_create, if_neg hne]

theorem fresh_ne_root (h : d.Shows page) : d.fresh ≠ d.root := fun heq ↦ by
  have hroot := h.root
  rw [← heq, node?_fresh] at hroot
  contradiction

theorem addTextAfter (h : d.Shows (above ++ ⟨bid, left ++ l :: right⟩ :: below)) (s : String) :
    ∃ e, d.addTextAfter l.id s = (e, .ok d.fresh) ∧
      e.Shows (above ++ ⟨bid, left ++ l :: ⟨d.fresh, .text s⟩ :: right⟩ :: below) ∧ Grows d e := by
  have hn : (d.create (.text s)).2.node? d.fresh = some ⟨(Content.text s).data, none, []⟩ := by
    rw [node?_create, if_pos rfl]
    rfl
  obtain ⟨e, he, hshows, hgrows⟩ := (h.create (.text s)).insertAfter_leaf hn h.fresh_ne_root
  refine ⟨e, ?_, hshows, (Grows.create _ _).trans hgrows⟩
  simp only [Document.addTextAfter, createText, create_fst, he]

/-! ### Images -/

theorem node?_setAttr {tag : String} {attrs : Entries String} {parent? : Option NodeId} {children : List NodeId}
    (hn : d.node? n = some ⟨.element tag attrs, parent?, children⟩) (name value : String) :
    (d.setAttr n name value).node? n = some ⟨.element tag (attrs.put name value), parent?, children⟩ := by
  rw [setAttr, node?_modify_self, hn]
  rfl

theorem setAttr_orphan (h : d.Shows page) (hroot : n ≠ d.root) {tag : String} {attrs : Entries String}
    {children : List NodeId} (hn : d.node? n = some ⟨.element tag attrs, none, children⟩) (name value : String) :
    (d.setAttr n name value).Shows page ∧ Grows d (d.setAttr n name value) ∧
      (d.setAttr n name value).node? n = some ⟨.element tag (attrs.put name value), none, children⟩ := by
  refine ⟨h.congr (modify_serial _ _ _) (h.linked.modify_data n fun m ↦ ?_) fun id hid ↦ ?_, Grows.modify _ _ _,
    node?_setAttr hn name value⟩
  · cases m.data <;> exact ⟨rfl, rfl⟩
  · exact node?_modify_of_ne (fun heq : id = n ↦ h.notMem_of_orphan hroot (parent?_of_node hn) (heq ▸ hid)) _

/-! ### Removals -/

theorem detach_leaf (h : d.Shows (above ++ ⟨bid, left ++ l :: right⟩ :: below)) :
    ∃ e, d.detach l.id = .ok e ∧ e.Shows (above ++ ⟨bid, left ++ right⟩ :: below) ∧ Grows d e ∧
      e.parent? l.id = none := by
  have hb : (⟨bid, left ++ l :: right⟩ : Paragraph) ∈ above ++ ⟨bid, left ++ l :: right⟩ :: below := by simp
  have hnode := h.node?_leaf hb (l := l) (by simp)
  have hroot := h.leaf_ne_root hb (l := l) (by simp)
  have hne := h.leaf_ne_block hb (l := l) (by simp)
  have hchildren : (left.map Leaf.id ++ l.id :: right.map Leaf.id).filter (· ≠ l.id) =
      left.map Leaf.id ++ right.map Leaf.id := filter_append_ne (by simpa using h.nodup_leaves hb)
  refine ⟨(d.modify bid fun n ↦ { n with children := n.children.filter (· ≠ l.id) }).modify l.id
    fun n ↦ { n with parent? := none }, ?_, ?_, (Grows.modify _ _ _).trans (Grows.modify _ _ _), ?_⟩
  · simp [detach, check_ok hnode, hroot, parent?_of_node hnode, bind, Except.bind]
  · have h' : d.Shows (above ++ ⟨bid, left ++ [l] ++ right⟩ :: below) := by simpa using h
    have hshows := h'.swapLeaves (e := (d.modify bid fun n ↦
      { n with children := n.children.filter (· ≠ l.id) }).modify l.id fun n ↦ { n with parent? := none })
      [] (by simp) (h.linked.release (h.blocks _ hb).node hnode hne
        (node?_release (h.blocks _ hb).node hnode hne)) ?_ ?_ (by simp) (by simp) (by simp)
    · simpa using hshows
    · rw [node?_modify_of_ne hne.symm, node?_modify_self, (h.blocks _ hb).node]
      simpa using hchildren
    · intro id _ hidb hid
      rw [node?_modify_of_ne (by simpa using hid), node?_modify_of_ne hidb]
  · rw [parent?, node?_modify_self, node?_modify_of_ne hne, hnode]
    rfl

theorem detach_block (h : d.Shows (above ++ b :: below)) :
    ∃ e, d.detach b.id = .ok e ∧ e.Shows (above ++ below) ∧ Grows d e ∧ e.HasBlock none b := by
  have hb : b ∈ above ++ b :: below := by simp
  have hnode := (h.blocks b hb).node
  have hroot := h.block_ne_root hb
  have hchildren : (above.map Paragraph.id ++ b.id :: below.map Paragraph.id).filter (· ≠ b.id) =
      above.map Paragraph.id ++ below.map Paragraph.id := filter_append_ne (by simpa using h.nodup_blocks)
  have hframe : ∀ id, id ≠ d.root → id ≠ b.id → ((d.modify d.root fun n ↦
      { n with children := n.children.filter (· ≠ b.id) }).modify b.id fun n ↦
        { n with parent? := none }).node? id = d.node? id := fun id hidroot hidb ↦ by
    rw [node?_modify_of_ne hidb, node?_modify_of_ne hidroot]
  refine ⟨(d.modify d.root fun n ↦ { n with children := n.children.filter (· ≠ b.id) }).modify b.id
    fun n ↦ { n with parent? := none }, ?_, ?_, (Grows.modify _ _ _).trans (Grows.modify _ _ _), ?_⟩
  · simp [detach, check_ok hnode, hroot, parent?_of_node hnode, bind, Except.bind]
  · have h' : d.Shows (above ++ [b] ++ below) := by simpa using h
    have hshows := h'.swap (e := (d.modify d.root fun n ↦
      { n with children := n.children.filter (· ≠ b.id) }).modify b.id fun n ↦ { n with parent? := none })
      [] (by simp) (h.linked.release h.root hnode hroot (node?_release h.root hnode hroot)) ?_ ?_ (by simp)
      (by simp) (by simp)
    · simpa using hshows
    · rw [node?_modify_of_ne hroot.symm, node?_modify_self, h.root]
      simpa using hchildren
    · intro id _ hidroot hid
      exact hframe id hidroot fun heq ↦ hid (by simp [Paragraph.ids, heq])
  · refine ⟨?_, fun l hl ↦ ?_⟩
    · rw [node?_modify_self, node?_modify_of_ne hroot, hnode]
      rfl
    · rw [HasLeaf, hframe _ (h.leaf_ne_root hb hl) (h.leaf_ne_block hb hl)]
      exact h.node?_leaf hb hl

theorem insertImage (h : d.Shows (above ++ ⟨bid, left ++ l :: right⟩ :: below)) (image : Image) :
    ∃ e, d.insertImage l.id image = .ok (d.fresh, e) ∧
      e.Shows (above ++ ⟨bid, left ++ ⟨d.fresh, .image image.attrs⟩ :: right⟩ :: below) ∧ Grows d e := by
  have hroot := h.fresh_ne_root
  have hn₀ : (d.createElement imageTag).2.node? d.fresh = some ⟨.element imageTag [], none, []⟩ := by
    rw [createElement, node?_create, if_pos rfl]
  have h₀ : (d.createElement imageTag).2.Shows _ := h.create _
  have hg₀ : Grows d (d.createElement imageTag).2 := Grows.create _ _
  obtain ⟨h₁, hg₁, hn₁⟩ := h₀.setAttr_orphan hroot hn₀ "name" image.name
  have hg₁ := hg₀.trans hg₁
  obtain ⟨h₂, hg₂, hn₂⟩ := h₁.setAttr_orphan (hg₁.root ▸ hroot) hn₁ "src" image.source
  have hg₂ := hg₁.trans hg₂
  obtain ⟨h₃, hg₃, hn₃⟩ := h₂.setAttr_orphan (hg₂.root ▸ hroot) hn₂ "width"
    (String.ofList (Decimal.natText image.width))
  have hg₃ := hg₂.trans hg₃
  obtain ⟨h₄, hg₄, hn₄⟩ := h₃.setAttr_orphan (hg₃.root ▸ hroot) hn₃ "height"
    (String.ofList (Decimal.natText image.height))
  have hg₄ := hg₃.trans hg₄
  have hattrs : Entries.put "height" (String.ofList (Decimal.natText image.height))
      (Entries.put "width" (String.ofList (Decimal.natText image.width))
        (Entries.put "src" image.source (Entries.put "name" image.name []))) = image.attrs := by
    simp [Entries.put, Image.attrs]
  rw [hattrs] at hn₄
  obtain ⟨e, he, hs, hg₅⟩ := h₄.insertBefore_leaf (c := .image image.attrs) hn₄ (hg₄.root ▸ hroot)
  have hs' : e.Shows (above ++ ⟨bid, (left ++ [⟨d.fresh, .image image.attrs⟩]) ++ l :: right⟩ :: below) := by
    simpa using hs
  obtain ⟨f, hf, hshows, hg₆, _⟩ := hs'.detach_leaf
  refine ⟨f, ?_, by simpa using hshows, (hg₄.trans hg₅).trans hg₆⟩
  have hparent := h.parent?_leaf (b := ⟨bid, left ++ l :: right⟩) (l := l) (by simp) (by simp)
  have hid : (d.createElement imageTag).1 = d.fresh := rfl
  simp only [Document.insertImage, hparent, replace, bind, Except.bind, hid, he, hf]

end Shows

end Document

end Stencil
