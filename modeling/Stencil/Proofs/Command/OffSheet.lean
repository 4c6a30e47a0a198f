import Stencil.Proofs.Command.Answer
/-!
The command that has no counterpart on sheets. It puts a copy of an image anywhere in the page, and the
scan goes on where it would have gone on without it.
-/

namespace Stencil

open Document (ahead?)

variable {t : Delimiters} {s s' : Slot} {r r' r₁ : RunState} {p : Placeholder} {c : Selection} {payload : List Char}
  {α : Type}

/-! ### Steps that leave the document alone -/

def Run.Idle (x : Run α) : Prop := ∀ r : RunState, r.Idles (x.on r).2

namespace Run

theorem Plain.idle {x : Run α} (h : x.Plain) : x.Idle := fun r ↦ by
  obtain ⟨f, hf⟩ := h
  obtain ⟨r', hon, _, hidles⟩ := hf r
  rw [hon]
  exact hidles

end Run

namespace Slot

theorem Answers.bind_idle {x : Run α} {k : α → Run Outcome} (hx : x.Idle) (h : r.document.Shows s.page)
    (hk : ∀ a r₁, x.on r = (.ok a, r₁) → r₁.document.Shows s.page → s.Answers t p r₁ (k a) none) :
    s.Answers t p r (x >>= k) none := by
  have hidles := hx r
  rcases hon : x.on r with ⟨e | a, r₁⟩
  · rw [hon] at hidles
    exact ⟨_, _, r₁, Run.on_bind_error hon, .failed ((Stands.refl (hidles.document ▸ h)).of_idles hidles), by simp⟩
  · rw [hon] at hidles
    obtain ⟨result, upshot?, r', hon', hcomes, _⟩ := hk a r₁ hon (hidles.document ▸ h)
    exact ⟨result, upshot?, r', (Run.on_bind_ok hon).trans hon', hcomes.of_idles hidles, by simp⟩

end Slot

/-! ### Copying an element -/

namespace Galley

def passed : Galley → List NodeId
  | within above bid left _ _ => Paragraph.order above ++ bid :: left.map Leaf.id
  | between above _ => Paragraph.order above
  | halted page => Paragraph.order page

theorem order_page (G : Galley) : Paragraph.order G.page = G.passed ++ G.ahead := by
  cases G with
  | within above bid left right below => simp [page, passed, ahead, Paragraph.order, Paragraph.ids]
  | between above below => exact Paragraph.order_append above below
  | halted page => simp [Galley.page, passed, ahead]

theorem next?_eq (G : Galley) : G.next? = G.ahead.head? := by
  have hhead : ∀ bs : List Paragraph, (bs.map Paragraph.id).head? = (Paragraph.order bs).head? := fun bs ↦ by
    cases bs <;> rfl
  cases G with
  | within above bid left right below =>
    rw [next?, ahead, ahead?, hhead, List.head?_append, Option.orElse_eq_orElse, Option.orElse_eq_or]
  | between above below => exact hhead below
  | halted page => rfl

theorem leaf_cases {G : Galley} {l : Leaf} (h : l ∈ G.page.flatMap Paragraph.leaves) : l ∈ G.behind ∨ l.id ∈ G.ahead := by
  cases G with
  | within above bid left right below =>
    rw [page, List.flatMap_append, List.flatMap_cons] at h
    rcases List.mem_append.1 h with h | h
    · exact .inl (List.mem_append_left _ h)
    rcases List.mem_append.1 h with h | h
    · rcases List.mem_append.1 h with h | h
      · exact .inl (List.mem_append_right _ h)
      · exact .inr (List.mem_append_left _ (List.mem_map_of_mem h))
    · exact .inr (List.mem_append_right _ (Paragraph.mem_order_of_leaf h))
  | between above below =>
    rw [page, List.flatMap_append] at h
    exact (List.mem_append.1 h).imp_right Paragraph.mem_order_of_leaf
  | halted page => exact .inl h

theorem exists_passed : ∀ (below above : List Paragraph) {a c : List NodeId}, Paragraph.order below = a ++ c → c ≠ [] →
    ∃ G : Galley, G.page = above ++ below ∧ G.passed = Paragraph.order above ++ a ∧ G.ahead = c := by
  intro below
  induction below with
  | nil =>
    intro above a c h hc
    exact absurd (List.append_eq_nil_iff.1 h.symm).2 hc
  | cons b below ih =>
    intro above a c h hc
    rw [Paragraph.order_cons] at h
    rcases List.append_eq_append_iff.1 h with ⟨k, rfl, hk⟩ | ⟨k, hk, rfl⟩
    · obtain ⟨G, hpage, hpassed, hahead⟩ := ih (above ++ [b]) hk hc
      exact ⟨G, by simpa using hpage, by simpa [Paragraph.order] using hpassed, hahead⟩
    · cases a with
      | nil =>
        refine ⟨.between above (b :: below), rfl, by simp [passed], ?_⟩
        rw [List.nil_append] at hk
        rw [ahead, Paragraph.order_cons, hk]
      | cons i a =>
        obtain ⟨rfl, hleaves⟩ : b.id = i ∧ b.leaves.map Leaf.id = a ++ k := by simpa [Paragraph.ids] using hk
        obtain ⟨left, right, hsplit, hleft, hright⟩ := List.map_eq_append_iff.1 hleaves
        refine ⟨.within above b.id left right below, ?_, by rw [passed, hleft], by rw [ahead, hright]⟩
        rw [page, ← hsplit]

end Galley

namespace Document

variable {d : Document} {page : List Paragraph}

theorem Shows.preorder_subset (h : d.Shows page) : ∀ (n : ℕ) (id : NodeId), id ∈ d.root :: page.flatMap Paragraph.ids →
    d.preorder n id ⊆ d.root :: page.flatMap Paragraph.ids := by
  intro n
  induction n with
  | zero => exact fun id hid x hx ↦ List.mem_singleton.1 hx ▸ hid
  | succ n ih =>
    intro id hid x hx
    rcases List.mem_cons.1 hx with rfl | hx
    · exact hid
    · obtain ⟨child, hchild, hx⟩ := List.mem_flatMap.1 hx
      refine ih child (List.mem_cons_of_mem _ ?_) hx
      rcases List.mem_cons.1 hid with rfl | hid
      · rw [h.children_root] at hchild
        obtain ⟨b, hb, rfl⟩ := List.mem_map.1 hchild
        exact List.mem_flatMap.2 ⟨b, hb, List.mem_cons_self ..⟩
      · obtain ⟨b, hb, hid⟩ := List.mem_flatMap.1 hid
        rcases List.mem_cons.1 hid with rfl | hid
        · rw [h.children_block hb] at hchild
          exact List.mem_flatMap.2 ⟨b, hb, List.mem_cons_of_mem _ hchild⟩
        · obtain ⟨l, hl, rfl⟩ := List.mem_map.1 hid
          rw [h.children_leaf hb hl] at hchild
          contradiction

theorem Shows.named?_image (h : d.Shows page) {name : String} {id : NodeId} (hnamed : d.named? name = some id) :
    ∃ b ∈ page, ∃ l ∈ b.leaves, ∃ attrs, l = ⟨id, .image attrs⟩ := by
  have hin := h.preorder_subset _ _ (List.mem_cons_self ..) (List.mem_of_find?_eq_some hnamed)
  have hattr : d.attr? id nameAttr = some name := by simpa using List.find?_some hnamed
  rcases List.mem_cons.1 hin with rfl | hin
  · simp [attr?, attrs, data?, h.root] at hattr
  · obtain ⟨b, hb, hin⟩ := List.mem_flatMap.1 hin
    rcases List.mem_cons.1 hin with rfl | hin
    · simp [attr?, attrs, data?, (h.blocks b hb).node] at hattr
    · obtain ⟨⟨_, content⟩, hl, rfl⟩ := List.mem_map.1 hin
      cases content with
      | text s => simp [attr?, attrs, data?, h.node?_leaf hb hl, Content.data] at hattr
      | image attrs => exact ⟨b, hb, _, hl, attrs, rfl⟩

theorem Shows.clone_image {d : Document} {above below : List Paragraph} {bid : NodeId} {left right : List Leaf}
    {id : NodeId} {attrs : Entries String} (h : d.Shows (above ++ ⟨bid, left ++ ⟨id, .image attrs⟩ :: right⟩ :: below))
    (newName : String) : ∃ e, d.deepClone id = .ok (d.fresh, e) ∧
      (e.setAttr d.fresh nameAttr newName).Shows (above ++ ⟨bid, left ++ ⟨id, .image attrs⟩ :: right⟩ :: below) ∧
      d.Grows (e.setAttr d.fresh nameAttr newName) ∧ (e.setAttr d.fresh nameAttr newName).node? d.fresh =
        some ⟨(Content.image (attrs.put nameAttr newName)).data, none, []⟩ := by
  have hcreate : (d.create (Content.image attrs).data).2.node? d.fresh = some ⟨.element imageTag attrs, none, []⟩ := by
    rw [node?_create, if_pos rfl]
    rfl
  obtain ⟨hshows, hgrows, hnode⟩ := (h.create (Content.image attrs).data).setAttr_orphan h.fresh_ne_root hcreate nameAttr newName
  exact ⟨_, h.deepClone_leaf (b := ⟨bid, left ++ ⟨id, .image attrs⟩ :: right⟩) (l := ⟨id, .image attrs⟩) (by simp) (by simp),
    hshows, (Grows.create _ _).trans hgrows, hnode⟩

end Document

namespace Handler

def placeCopy (anchor? : Option NodeId) (parent clone : NodeId) (d : Document) : Except DocumentError Document :=
  match anchor? with
  | some anchor => d.insertBefore anchor clone
  | none => d.appendChild parent clone

theorem idle_findNamed (name : String) : (findNamed name).Idle := fun r ↦ by
  rw [findNamed, Run.on_bind_ok (Run.on_document r)]
  split <;> exact .refl r

theorem idle_findAnchor? (name? : Option String) : (findAnchor? name?).Idle := fun r ↦ by
  cases name? with
  | none => exact .refl r
  | some name =>
    have hidles := idle_findNamed name r
    rw [findAnchor?]
    rcases hon : (findNamed name).on r with ⟨e | id, r₁⟩
    · rw [hon] at hidles
      rwa [Run.on_bind_error hon]
    · rw [hon] at hidles
      rwa [Run.on_bind_ok hon]

end Handler

namespace Slot

/-- A new leaf anywhere in the page leaves the scan where it is. -/
theorem Onward.insert {d : Document} {G : Galley} {above below : List Paragraph} {bid : NodeId} {left right : List Leaf}
    {x : Leaf} (h : s.Onward d [] G) (hpage : G.page = above ++ ⟨bid, left ++ right⟩ :: below) (hx : d.node? x.id = none) :
    ∃ G' : Galley, G'.page = above ++ ⟨bid, left ++ x :: right⟩ :: below ∧ G'.next? = G.next? ∧ s.Onward d [] G' := by
  let page' := above ++ ⟨bid, left ++ x :: right⟩ :: below
  have hleaf : ∀ l ∈ page'.flatMap Paragraph.leaves,
      l ∈ s.behind ∨ l.id = s.mark.id ∨ l.id ∈ s.ahead ∨ d.node? l.id = none := fun l hl ↦ by
    have hcases : l = x ∨ l ∈ G.page.flatMap Paragraph.leaves := by
      simp only [page', hpage, List.flatMap_append, List.flatMap_cons, List.mem_append, List.mem_cons] at hl ⊢
      tauto
    rcases hcases with rfl | hl
    · exact .inr (.inr (.inr hx))
    · rcases Galley.leaf_cases hl with hl | hl
      · exact h.behind l hl
      · exact .inr (.inr ((h.ahead _ hl).resolve_left (by simp)))
  have honward : ∀ G' : Galley, G'.page = page' → (∀ id ∈ G'.ahead, id = x.id ∨ id ∈ G.ahead) → s.Onward d [] G' := by
    refine fun G' hpage' hahead ↦ .intro (fun id hid ↦ ?_) fun l hl ↦ hleaf l ?_
    · rcases hahead id hid with rfl | hid
      · exact .inr hx
      · exact (h.ahead id hid).resolve_left (by simp)
    · rw [← hpage']
      cases G' with
      | within above bid left right below =>
        rw [Galley.page, List.flatMap_append, List.flatMap_cons]
        rcases List.mem_append.1 hl with hl | hl
        · exact List.mem_append_left _ hl
        · exact List.mem_append_right _ (List.mem_append_left _ (List.mem_append_left _ hl))
      | between above below =>
        rw [Galley.page, List.flatMap_append]
        exact List.mem_append_left _ hl
      | halted page => exact hl
  cases hahead : G.ahead with
  | nil => exact ⟨.halted page', rfl, by rw [G.next?_eq, hahead]; rfl, honward _ rfl (by simp [Galley.ahead])⟩
  | cons n rest =>
    -- the new leaf is before the node that the scan goes on at, or behind it
    have horder : ∃ a c, Paragraph.order page' = a ++ n :: c ∧ ∀ id ∈ n :: c, id = x.id ∨ id ∈ n :: rest := by
      have hG := G.order_page
      have hsplit : ∃ u v, Paragraph.order G.page = u ++ v ∧ Paragraph.order page' = u ++ x.id :: v :=
        ⟨Paragraph.order above ++ bid :: left.map Leaf.id, right.map Leaf.id ++ Paragraph.order below,
          by simp [hpage, Paragraph.order, Paragraph.ids], by simp [page', Paragraph.order, Paragraph.ids]⟩
      obtain ⟨u, v, hu, hv⟩ := hsplit
      rw [hu, hahead] at hG
      rcases List.append_eq_append_iff.1 hG with ⟨k, hpassed, hk⟩ | ⟨k, rfl, hk⟩
      · exact ⟨u ++ x.id :: k, rest, by rw [hv, hk]; simp, fun id hid ↦ .inr hid⟩
      · cases k with
        | nil =>
          obtain rfl : n :: rest = v := hk
          exact ⟨G.passed ++ [x.id], rest, by rw [hv]; simp, fun id hid ↦ .inr hid⟩
        | cons m k =>
          obtain ⟨rfl, rfl⟩ : n = m ∧ rest = k ++ v := by simpa using hk
          refine ⟨G.passed, k ++ x.id :: v, by rw [hv]; simp, fun id hid ↦ ?_⟩
          simp only [List.mem_cons, List.mem_append] at hid ⊢
          tauto
    obtain ⟨a, c, ha, hc⟩ := horder
    obtain ⟨G', hpage', -, hahead'⟩ := Galley.exists_passed page' [] ha (by simp)
    have hpage' : G'.page = page' := hpage'
    refine ⟨G', hpage', by rw [G'.next?_eq, hahead', G.next?_eq, hahead]; rfl, honward G' hpage' fun id hid ↦ ?_⟩
    rw [hahead'] at hid
    exact hahead ▸ hc id hid

theorem image_removed {id : NodeId} {attrs : Entries String} (hmark : ∃ text, s.mark.content = .text text)
    (h : ∃ b ∈ s.page, (⟨id, .image attrs⟩ : Leaf) ∈ b.leaves) :
    ∃ above bid left right below, s.removed.page = above ++ ⟨bid, left ++ ⟨id, .image attrs⟩ :: right⟩ :: below := by
  have hin : ∃ b ∈ s.removed.page, (⟨id, .image attrs⟩ : Leaf) ∈ b.leaves := by
    obtain ⟨b, hb, hl⟩ := h
    rw [page_removed]
    simp only [page, List.mem_append, List.mem_cons] at hb ⊢
    rcases hb with hb | rfl | hb
    · exact ⟨b, .inl (.inl hb), hl⟩
    · have hl' : (⟨id, .image attrs⟩ : Leaf) ∈ s.left ++ s.right := by
        obtain ⟨text, htext⟩ := hmark
        simp only [List.mem_append, List.mem_cons] at hl ⊢
        rcases hl with hl | hl | hl
        · exact .inl hl
        · rw [← hl] at htext
          contradiction
        · exact .inr hl
      refine ⟨⟨s.bid, s.left ++ s.right⟩, .inl (.inr ?_), hl'⟩
      rw [Paragraph.kept, if_neg, List.mem_singleton]
      intro hblank
      have himage := List.all_eq_true.1 hblank _ hl'
      contradiction
    · exact ⟨b, .inr hb, hl⟩
  obtain ⟨⟨bid, leaves⟩, hb, hl⟩ := hin
  obtain ⟨above, below, hpage⟩ := List.append_of_mem hb
  obtain ⟨left, right, rfl⟩ := List.append_of_mem hl
  exact ⟨above, bid, left, right, below, hpage⟩

/-- The marker goes, and a copy of an image is put before another image, or behind the last leaf of its
own block. -/
theorem clone_on (h : r.document.Shows s.page) (hc : s.Hosts t c payload) {name : String} {element : NodeId}
    (helement : r.document.named? name = some element) {anchor? : Option NodeId}
    (hanchor : ∀ anchor, anchor? = some anchor → ∃ n, r.document.named? n = some anchor) (newName : String) :
    s.Answers t p r (do
      let result ← c.deletePlaceholder
      match (← Run.document).parent? element with
      | none => throw (.structure (.notCloneable name))
      | some parent =>
        let clone ← Run.editFor fun d ↦ d.deepClone element
        Run.change fun d ↦ d.setAttr clone nameAttr newName
        Run.edit fun d ↦ Handler.placeCopy anchor? parent clone d
        Run.log (.clonedElement name newName)
        return .ofEdit result) none := by
  have himage : ∀ {n id}, r.document.named? n = some id → ∃ attrs above bid left right below,
      s.removed.page = above ++ ⟨bid, left ++ ⟨id, .image attrs⟩ :: right⟩ :: below := fun hnamed ↦ by
    obtain ⟨b, hb, l, hl, attrs, rfl⟩ := h.named?_image hnamed
    exact ⟨attrs, image_removed ⟨_, hc.content⟩ ⟨b, hb, hl⟩⟩
  obtain ⟨r₁, hon, hkeeps, h₁, _⟩ := s.removed_on h
  have hdelete : c.deletePlaceholder.on r = (.ok (some (.toward s.removed.next?)), r₁) := by
    rw [Selection.deletePlaceholder, hc.toolkit]
    dsimp only
    rw [hc.node, Run.on_bind_ok hon, Run.on_pure]
  obtain ⟨attrs, above, bid, left, right, below, hpage⟩ := himage helement
  rw [hpage] at h₁
  have hparent : r₁.document.parent? element = some bid :=
    h₁.parent?_leaf (b := ⟨bid, left ++ ⟨element, .image attrs⟩ :: right⟩) (l := ⟨element, .image attrs⟩) (by simp) (by simp)
  obtain ⟨e, hclone, h₂, hgrows₂, hnode⟩ := h₁.clone_image newName
  let new : Leaf := ⟨r₁.document.fresh, .image (attrs.put nameAttr newName)⟩
  have hroot : new.id ≠ (e.setAttr new.id nameAttr newName).root := hgrows₂.root ▸ h₁.fresh_ne_root
  have hunknown : r.document.node? new.id = none := hkeeps.grows.unknown (Document.node?_fresh _)
  have honward : s.Onward r.document [] s.removed :=
    .intro (fun id hid ↦ .inl (s.ahead_removed id hid)) fun l hl ↦ .inl (s.behind_removed l hl)
  -- the copy is put somewhere, and the scan goes on where it would have gone on without it
  have hinsert : ∃ f, Handler.placeCopy anchor? bid new.id (e.setAttr new.id nameAttr newName) = .ok f ∧
      (e.setAttr new.id nameAttr newName).Grows f ∧ ∃ G : Galley, f.Shows G.page ∧ G.next? = s.removed.next? ∧
        s.Onward r.document [] G := by
    cases anchor? with
    | none =>
      obtain ⟨f, hf, hshows, hgrows⟩ := h₂.appendChild_leaf (b := ⟨bid, left ++ ⟨element, .image attrs⟩ :: right⟩) hnode hroot
      have hpage' : s.removed.page = above ++ ⟨bid, (left ++ ⟨element, .image attrs⟩ :: right) ++ []⟩ :: below := by
        rw [List.append_nil]
        exact hpage
      obtain ⟨G, hG, hnext, hG'⟩ := honward.insert hpage' hunknown
      exact ⟨f, hf, hgrows, G, hG ▸ hshows, hnext, hG'⟩
    | some anchor =>
      obtain ⟨n, hn⟩ := hanchor anchor rfl
      obtain ⟨attrs', above', bid', left', right', below', hpage'⟩ := himage hn
      have h₂' := hpage ▸ h₂
      rw [hpage'] at h₂'
      obtain ⟨f, hf, hshows, hgrows⟩ := h₂'.insertBefore_leaf (l := ⟨anchor, .image attrs'⟩) hnode hroot
      obtain ⟨G, hG, hnext, hG'⟩ := honward.insert hpage' hunknown
      exact ⟨f, hf, hgrows, G, hG ▸ hshows, hnext, hG'⟩
  obtain ⟨f, hf, hgrows₃, G, hshows, hnext, hG⟩ := hinsert
  let r₂ : RunState := { r₁ with document := f }
  have hkeeps₂ : r₁.Keeps r₂ := RunState.keeps_document (hgrows₂.trans hgrows₃)
  let r₃ : RunState := { r₂ with log := .clonedElement name newName :: r₂.log }
  have hkeeps₃ : r₂.Keeps r₃ := RunState.keeps_log rfl
  refine ⟨.ok (.executed (.toward s.removed.next?)), none, r₃, ?_, .strayed (G := G)
    ((hkeeps.trans hkeeps₂).trans hkeeps₃).toLeads hshows ?_ hG, by simp⟩
  · have hcopy : (Run.editFor fun d ↦ d.deepClone element).on r₁ = (.ok new.id, { r₁ with document := e }) :=
      Run.on_editFor hclone
    have hchange : (Run.change fun d ↦ d.setAttr new.id nameAttr newName).on { r₁ with document := e } =
        (.ok (), { r₁ with document := e.setAttr new.id nameAttr newName }) := rfl
    have hedit := Run.on_edit (r := { r₁ with document := e.setAttr new.id nameAttr newName }) 
      (f := fun d ↦ Handler.placeCopy anchor? bid new.id d) hf
    rw [Run.on_bind_ok hdelete, Run.on_bind_ok (Run.on_document r₁)]
    simp only [hparent]
    rw [Run.on_bind_ok hcopy, Run.on_bind_ok hchange, Run.on_bind_ok hedit, Run.on_bind_ok (Run.on_log _ _), Run.on_pure]
    rfl
  · rw [← hnext]
    exact Galley.resumption hshows

theorem copy_on (h : r.document.Shows s.page) (hc : s.Hosts t c payload) :
    s.Answers t p r (Handler.copy.execute c) none := by
  refine .bind_idle (Run.plain_ofExcept _ _).idle h fun name r₁ _ h₁ ↦ .bind_idle (Run.plain_ofExcept _ _).idle h₁
    fun newName r₂ _ h₂ ↦ .bind_idle (Handler.idle_findNamed name) h₂ fun element r₃ hfound h₃ ↦
      .bind_idle (Handler.idle_findAnchor? _) h₃ fun anchor? r₄ hanchor h₄ ↦ ?_
  obtain ⟨helement, rfl⟩ := Handler.findNamed_eq_ok hfound
  obtain ⟨rfl, hanchor⟩ := Handler.findAnchor?_eq_ok hanchor
  exact clone_on h₄ hc helement (fun anchor ha ↦ (hanchor anchor ha).imp fun _ h ↦ h.2) newName

end Slot

end Stencil
