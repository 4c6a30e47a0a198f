import Stencil.Proofs.Command.Failure
import Stencil.Proofs.Grove.Replicas
import Stencil.Proofs.Run.Erasure
import Stencil.Run.Scan
/-!
Where the scan goes on when an element has been copied. The place is settled when the placeholder
goes, before there is a copy. The scan comes to a copy that stands behind the placeholder's place only
when it does not stand right at that place: then the scan goes on behind it.
-/

namespace Stencil

open Grove

namespace Document

variable {t : Delimiters} {d e m : Document} {fs gs : List Frame} {a b sub xsub : Grove} {p x y id : NodeId} {pdata : NodeData}
  {xs ys zs : List NodeId}

def onward (d : Document) (place? : Option NodeId) : List NodeId :=
  (d.descendants d.root).dropWhile fun id ↦ decide (some id ≠ place?)

theorem Forest.nodup_descendants_root (hd : d.Forest) : (d.descendants d.root).Nodup := by
  obtain ⟨g, hg, -, horder⟩ := hd.exists_root
  rw [horder]
  exact hg.nodup

theorem Forest.onward_head? (hd : d.Forest) (hsplit : d.descendants d.root = xs ++ ys) : d.onward ys.head? = ys := by
  have hnodup := hd.nodup_descendants_root
  rw [onward, hsplit]
  rw [hsplit] at hnodup
  cases ys with
  | nil =>
    have hpass : ∀ id ∈ xs, decide (some id ≠ ([] : List NodeId).head?) = true := fun _ _ ↦ by simp
    rw [List.dropWhile_append_of_pos hpass, List.dropWhile_nil]
  | cons y ys =>
    have hpass : ∀ id ∈ xs, decide (some id ≠ (y :: ys).head?) = true := fun id hid ↦ by
      have hne : id ≠ y := (List.nodup_append.1 hnodup).2.2 id hid y (List.mem_cons_self ..)
      simpa using hne
    rw [List.dropWhile_append_of_pos hpass, List.dropWhile_cons_of_neg (by simp)]

theorem Forest.descendants_cons (hd : d.Forest) (hid : d.node? id ≠ none) : ∃ below, d.descendants id = id :: below := by
  obtain ⟨sub, data, fs, hplace⟩ := hd.exists_place hid
  exact ⟨sub.order, hplace.descendants⟩

theorem Forest.front_ne_nil (hd : d.Forest) (hparent : d.parent? x = some p)
    (hsplit : d.descendants d.root = xs ++ d.descendants x ++ zs) : xs ≠ [] := by
  rintro rfl
  obtain ⟨below, hbelow⟩ := hd.descendants_cons (known_of_parent? hparent)
  obtain ⟨all, hall⟩ := hd.descendants_cons hd.wellFormed.rooted
  rw [hbelow, hall] at hsplit
  rw [← (List.cons.inj hsplit).1, hd.wellFormed.topmost] at hparent
  contradiction

/-- The next marker that a search comes to is the first one from its place on. -/
theorem Forest.search_onward (hd : d.Forest) (ht : t.Proper) (hsplit : d.descendants d.root = xs ++ y :: zs) (hxs : xs ≠ []) :
    ∃ e split? found?, d.search t y = ⟨e, split?, .ok found?⟩ ∧
      found?.bind e.text? = (d.payloadsAt t (y :: zs)).head?.map fun q ↦ String.ofList (t.enclose q) := by
  obtain ⟨g, hg, -, horder⟩ := hd.exists_root
  rw [horder] at hsplit
  obtain ⟨e, split?, found?, g', zs', hsearch, -, hfound, hnothing⟩ := hg.searchFrom t (d.size + 1) hd hsplit hxs
  refine ⟨e, split?, found?, hsearch, ?_⟩
  cases found? with
  | none =>
    have hlength := hg.order_length
    rw [hsplit] at hlength
    simp only [List.length_append, List.length_cons] at hlength
    rw [hnothing rfl (by omega)]
    rfl
  | some m =>
    obtain ⟨-, _, _, -, hfirst⟩ := hfound m rfl
    obtain ⟨q, -, htext, -, hpayloads⟩ := hfirst ht
    rw [hpayloads, Option.bind_some, htext]
    rfl

/-! ### Copies of elements -/

/-- A copy of an element of a document, put among its nodes: `front` stand before it and `rear` behind. -/
structure Cloned (d e : Document) (element : NodeId) (name : String) (copied : NodeId) (front rear : List NodeId) : Prop where
  wellFormed : e.WellFormed
  root : e.root = d.root
  nodes : d.descendants d.root = front ++ rear
  tree : e.descendants e.root = front ++ (e.descendants copied ++ rear)
  new : ∀ id ∈ e.descendants copied, d.node? id = none
  kept : ∀ id, d.node? id ≠ none → e.data? id = d.data? id ∧ e.parent? id = d.parent? id
  named : e.attr? copied nameAttr = some name
  texts : (e.descendants copied).filterMap e.text? = (d.descendants element).filterMap d.text?

theorem data?_of_named {name : String} (h : d.named? name = some id) : ∃ tag attrs, d.data? id = some (.element tag attrs) := by
  have hname := List.find?_some h
  rw [attr?, attrs] at hname
  cases hdata : d.data? id with
  | none => simp [hdata] at hname
  | some data =>
    cases data with
    | element tag attrs => exact ⟨tag, attrs, rfl⟩
    | text => simp [hdata] at hname

theorem Holds.filterMap_text {p? : Option NodeId} {g : Grove} (h : d.Holds p? g) (above : List NodeData) :
    g.order.filterMap d.text? = (g.lineages above).filterMap Lineage.text? := by
  induction g generalizing p? above with
  | bare => rfl
  | tree top data below rest ihb ihr =>
    have htext : d.text? top = Lineage.text? ⟨top, data, above⟩ := by
      rw [text?, Document.data?, h.1, Lineage.text?]
      cases data <;> rfl
    rw [order, lineages, List.filterMap_cons, List.filterMap_cons, List.filterMap_append, List.filterMap_append, htext,
      ihb h.2.1 (data :: above), ihr h.2.2 above]

section Placing

variable {tag name : String} {attrs : Entries String} (hd : d.Forest)
  (hx : d.Stands (plug gs (.single x (.element tag attrs) xsub))) (hp : d.Stands (plug fs (.single p pdata (a ++ b))))
  (htop : (plug fs (.single p pdata (a ++ b))).tops = [d.root]) (helement : ¬pdata.IsText)

include hd hx

theorem Forest.renamed_copy (name : String) : ∃ c sub', d.deepClone x = .ok (d.fresh, c) ∧
    (c.setAttr d.fresh nameAttr name).Forest ∧
    (c.setAttr d.fresh nameAttr name).Stands (.single d.fresh (.element tag (attrs.put nameAttr name)) sub') ∧ xsub.Alike sub' ∧
    Grows d (c.setAttr d.fresh nameAttr name) ∧ (∀ id ∈ sub'.order, d.node? id = none) ∧
    ∀ id, d.node? id ≠ none → (c.setAttr d.fresh nameAttr name).node? id = d.node? id := by
  obtain ⟨sub', c, hcopy, halike, hc, hstands, hgrows, hnew, hstay⟩ := hx.copyFrom (Nat.lt_succ_self _) hd
  have hplace : c.Stands (plug [] (.single d.fresh (.element tag attrs) sub')) := hstands
  have hnodes : ∀ id, (c.setAttr d.fresh nameAttr name).node? id =
      if id = d.fresh then some ⟨.element tag (attrs.put nameAttr name), (chain []).head?, sub'.tops⟩ else c.node? id := by
    intro id
    rw [setAttr, node?_modify, hplace.node?]
    split <;> rfl
  have hnotext : (NodeData.element tag (attrs.put nameAttr name)).IsText → (NodeData.element tag attrs).IsText := by
    simp [NodeData.IsText]
  refine ⟨c, sub', hcopy, hc.relabel (by simp [setAttr]) hplace hnotext hnodes, hplace.relabel hnotext hnodes, halike,
    hgrows.trans (Grows.modify _ _ _), hnew, fun id hid ↦ ?_⟩
  have hne : id ≠ d.fresh := fun heq ↦ hid (heq ▸ node?_fresh d)
  rw [hnodes, if_neg hne, hstay id hid]

include hp htop helement

theorem Forest.cloned (name : String) : ∃ c, d.deepClone x = .ok (d.fresh, c) ∧
    (c.setAttr d.fresh nameAttr name).checkInsertable p d.fresh = .ok () ∧
    (∀ id, d.node? id ≠ none → (c.setAttr d.fresh nameAttr name).node? id = d.node? id) ∧
    d.Cloned ((c.setAttr d.fresh nameAttr name).link p d.fresh (a.tops ++ d.fresh :: b.tops)) x name d.fresh
      (before fs ++ p :: a.order) (b.order ++ behind fs) := by
  obtain ⟨c, sub', hcopy, hc, hcopied, halike, hgrows, hnew, hstay⟩ := hd.renamed_copy hx name
  have hp' : (c.setAttr d.fresh nameAttr name).Stands (plug fs (.single p pdata (a ++ b))) :=
    hp.congr fun id hid ↦ hstay id (hp.holds.known id hid)
  have hapart : d.fresh ∉ (plug fs (.single p pdata (a ++ b))).order := fun hin ↦ hp.holds.known _ hin (node?_fresh d)
  have hroot : d.fresh ≠ (c.setAttr d.fresh nameAttr name).root := fun heq ↦ by
    rw [hgrows.root] at heq
    exact hd.wellFormed.rooted (heq ▸ node?_fresh d)
  obtain ⟨hstands, hnodes⟩ := hp'.link hcopied hapart helement
  have hforest := hc.link hp' hcopied hapart helement hroot
  have hgrows' : Grows d ((c.setAttr d.fresh nameAttr name).link p d.fresh (a.tops ++ d.fresh :: b.tops)) :=
    hgrows.trans ((Grows.modify _ _ _).trans (Grows.modify _ _ _))
  have hplace : ((c.setAttr d.fresh nameAttr name).link p d.fresh (a.tops ++ d.fresh :: b.tops)).Stands
      (plug (⟨p, pdata, a, b⟩ :: fs) (.single d.fresh (.element tag (attrs.put nameAttr name)) sub')) := hstands
  have htree := hplace.descendants_root (by rw [hgrows'.root, ← htop, tops_plug, tops_plug, summit_cons])
  refine ⟨c, hcopy, hp'.checkInsertable hcopied hapart helement hroot, hstay, hforest.wellFormed, hgrows'.root, ?_, ?_, ?_, ?_, ?_, ?_⟩
  · rw [hp.descendants_root htop, order_plug]
    simp
  · rw [htree, hplace.descendants, order_plug, before, behind]
    simp
  · rw [hplace.descendants, List.forall_mem_cons]
    exact ⟨node?_fresh d, hnew⟩
  · intro id hid
    have hne : id ≠ d.fresh := fun heq ↦ hid (heq ▸ node?_fresh d)
    rw [Document.data?, Document.parent?, hnodes, if_neg hne]
    split_ifs with hidp
    · rw [hidp, hp.data?, hp.parent?]
      exact ⟨rfl, rfl⟩
    · rw [hstay id hid]
      exact ⟨rfl, rfl⟩
  · rw [attr?, Document.attrs, hplace.data?]
    exact Entries.get?_put_self nameAttr name attrs
  · rw [hplace.descendants, hx.descendants, List.filterMap_cons, List.filterMap_cons, hplace.below.filterMap_text [],
      hx.below.filterMap_text [], halike.filterMap_text, text?, text?, hplace.data?, hx.data?]

omit hp htop helement

theorem Forest.cloned_before (name : String) (hy : d.isAttached y = true) (hparent : d.parent? y = some p) : ∃ c e front rear,
    d.deepClone x = .ok (d.fresh, c) ∧ (c.setAttr d.fresh nameAttr name).insertBefore y d.fresh = .ok e ∧
      d.Cloned e x name d.fresh front rear ∧ rear.head? = some y := by
  obtain ⟨g, hg, htop, horder⟩ := hd.exists_root
  rw [hd.isAttached_iff_mem, horder] at hy
  obtain ⟨sub, data, fs, rfl⟩ := hg.exists_place hy
  obtain - | ⟨f, fs⟩ := fs
  · rw [hg.parent?] at hparent
    contradiction
  obtain ⟨hup, hchildren, hleft⟩ := hg.siblings
  obtain rfl : f.id = p := Option.some.inj (hup.symm.trans hparent)
  have hp : d.Stands (plug fs (.single f.id f.data (f.left ++ (.single y data sub ++ f.right)))) := by
    rw [← append_assoc]
    exact hg
  have htop' : (plug fs (.single f.id f.data (f.left ++ (.single y data sub ++ f.right)))).tops = [d.root] := by
    rw [← htop, tops_plug, tops_plug, summit_cons]
  obtain ⟨c, hcopy, hcheck, hstay, hcloned⟩ := hd.cloned hx hp htop' (hg.proper_frames f (List.mem_cons_self ..)).element name
  have hynode := (hstay y (known_of_parent? hup)).trans hg.node?
  have hsiblings : (c.setAttr d.fresh nameAttr name).children f.id = f.left.tops ++ y :: f.right.tops := by
    rw [← hchildren, Document.children, Document.children, hstay f.id (by simp [hp.node?])]
  refine ⟨c, _, _, _, hcopy, ?_, hcloned, by simp⟩
  have hup' : (c.setAttr d.fresh nameAttr name).parent? y = some f.id := by
    rw [Document.parent?, hynode]
    rfl
  simp [insertBefore, insertBeside, check_ok hynode, hup', hcheck, hsiblings, putBefore_append hleft, bind, Except.bind]

theorem Forest.cloned_last (name : String) (hattached : d.isAttached x = true) (hparent : d.parent? x = some p) : ∃ c e front rear,
    d.deepClone x = .ok (d.fresh, c) ∧ (c.setAttr d.fresh nameAttr name).appendChild p d.fresh = .ok e ∧
      d.Cloned e x name d.fresh front rear ∧ ∃ above, front = above ++ d.descendants p := by
  obtain ⟨g, hg, htop, horder⟩ := hd.exists_root
  rw [hd.isAttached_iff_mem, horder] at hattached
  obtain ⟨sub, data, fs, rfl⟩ := hg.exists_place hattached
  obtain - | ⟨f, fs⟩ := fs
  · rw [hg.parent?] at hparent
    contradiction
  obtain ⟨hup, hchildren, -⟩ := hg.siblings
  obtain rfl : f.id = p := Option.some.inj (hup.symm.trans hparent)
  have hp : d.Stands (plug fs (.single f.id f.data ((f.left ++ .single x data sub ++ f.right) ++ bare))) := by
    rw [append_bare]
    exact hg
  have htop' : (plug fs (.single f.id f.data ((f.left ++ .single x data sub ++ f.right) ++ bare))).tops = [d.root] := by
    rw [← htop, tops_plug, tops_plug, summit_cons]
  obtain ⟨c, hcopy, hcheck, hstay, hcloned⟩ := hd.cloned hx hp htop' (hg.proper_frames f (List.mem_cons_self ..)).element name
  have hsiblings : (c.setAttr d.fresh nameAttr name).children f.id = (f.left ++ .single x data sub ++ f.right).tops := by
    rw [Document.children, hstay f.id (by simp [hp.node?]), ← Document.children, hp.children, append_bare]
  refine ⟨c, _, _, _, hcopy, ?_, hcloned, before fs, ?_⟩
  · simp [appendChild, hcheck, hsiblings, bind, Except.bind]
  · rw [hp.descendants, append_bare]

end Placing

end Document

/-- What the copying of an element makes of a document, in two steps: the placeholder goes, where `xs` stand
before it and `zs` behind it, and the copy is put where `front` stand before it and `rear` behind it. -/
structure Handler.Copied (d m e : Document) (s : Selection) (next : Continuation) (copied : NodeId) (xs zs front rear : List NodeId) :
    Prop where
  erased : d.Erased m s.node next
  marker : d.descendants d.root = xs ++ d.descendants (d.removalRoot s.node) ++ zs
  rest : m.descendants m.root = xs ++ zs
  next : next = .toward zs.head?
  cloned : ∃ name newName element parent, s.str? "name" = some name ∧ d.named? name = some element ∧
    d.parent? element = some parent ∧ s.str? "newName" = some newName ∧ m.Cloned e element newName copied front rear ∧
    (s.str? "insertBefore" = none → ∃ above, front = above ++ m.descendants parent)
  anchored : ∀ before, s.str? "insertBefore" = some before → ∃ anchor, d.named? before = some anchor ∧ rear.head? = some anchor

namespace Handler

open Run Document

variable {t : Delimiters} {d m e : Document} {s : Selection} {r r' : RunState} {next : Continuation} {copied : NodeId}
  {xs zs front rear : List NodeId}

namespace Copied

variable (h : Copied d m e s next copied xs zs front rear)

include h

theorem split_eq : xs ++ zs = front ++ rear := by
  obtain ⟨_, _, _, _, -, -, -, -, hcloned, -⟩ := h.cloned
  rw [← h.rest, hcloned.nodes]

theorem tree : e.Forest ∧ e.descendants e.root = front ++ (e.descendants copied ++ rear) := by
  obtain ⟨_, _, _, _, -, -, -, -, hcloned, -⟩ := h.cloned
  exact ⟨hcloned.wellFormed.forest, hcloned.tree⟩

theorem mem_self : copied ∈ e.descendants copied := by
  obtain ⟨_, _, _, _, -, -, -, -, hcloned, -⟩ := h.cloned
  apply h.tree.1.mem_descendants _ (List.mem_cons_self ..)
  intro hnone
  have hnamed := hcloned.named
  simp [attr?, Document.attrs, Document.data?, hnone] at hnamed

theorem resumption_eq (p : Placeholder) : Scanner.resumption e p next = zs.head? := by
  obtain ⟨hforest, htree⟩ := h.tree
  rw [h.next]
  cases hhead : zs.head? with
  | none => rfl
  | some z =>
    have hz : z ∈ front ++ rear := by
      rw [← h.split_eq]
      exact List.mem_append_right _ (List.mem_of_mem_head? hhead)
    have hattached : e.isAttached z = true := by
      rw [hforest.isAttached_iff_mem, htree]
      simp only [List.mem_append] at hz ⊢
      tauto
    exact if_pos hattached

/-- Behind the place of the placeholder, the copy is ahead of the scan when something stands between. -/
theorem onward_between {between : List NodeId} (hbetween : front = xs ++ between) (hne : between ≠ []) :
    e.onward zs.head? = between ++ (e.descendants copied ++ rear) := by
  obtain ⟨hforest, htree⟩ := h.tree
  obtain ⟨k, ks, rfl⟩ := List.exists_cons_of_ne_nil hne
  have hzs : zs = (k :: ks) ++ rear := by
    have hsplit := h.split_eq
    rw [hbetween, List.append_assoc] at hsplit
    exact List.append_cancel_left hsplit
  have hhead : zs.head? = ((k :: ks) ++ (e.descendants copied ++ rear)).head? := by
    rw [hzs]
    rfl
  have hwhole : e.descendants e.root = xs ++ ((k :: ks) ++ (e.descendants copied ++ rear)) := by
    rw [htree, hbetween, List.append_assoc]
  rw [hhead, hforest.onward_head? hwhole]

/-- Right at the place of the placeholder, the copy is passed over. -/
theorem onward_beside (hbeside : front = xs) : e.onward zs.head? = rear := by
  obtain ⟨hforest, htree⟩ := h.tree
  have hzs : zs = rear := by
    have hsplit := h.split_eq
    rw [hbeside] at hsplit
    exact List.append_cancel_left hsplit
  have hwhole : e.descendants e.root = (front ++ e.descendants copied) ++ rear := by
    rw [htree, List.append_assoc]
  rw [hzs, hforest.onward_head? hwhole]

/-- A copy behind the place of the placeholder is ahead of the scan unless it stands right there. -/
theorem mem_onward_iff (hbehind : xs <+: front) : copied ∈ e.onward zs.head? ↔ front ≠ xs := by
  obtain ⟨between, rfl⟩ := hbehind
  obtain ⟨hforest, htree⟩ := h.tree
  have hself := h.mem_self
  by_cases hne : between = []
  · have hnodup := hforest.nodup_descendants_root
    rw [htree] at hnodup
    have hapart := (List.nodup_append.1 (List.nodup_append.1 hnodup).2.1).2.2
    rw [h.onward_beside (by rw [hne, List.append_nil]), hne, List.append_nil]
    exact ⟨fun hin ↦ absurd rfl (hapart copied hself copied hin), fun hfalse ↦ absurd rfl hfalse⟩
  · rw [h.onward_between rfl hne]
    simp [hself, hne]

/-- It stands right there exactly when it was put in front of the node that the scan goes on at. -/
theorem front_eq_iff {before : String} (hbefore : s.str? "insertBefore" = some before) : front = xs ↔ zs.head? = d.named? before := by
  obtain ⟨anchor, hanchor, hhead⟩ := h.anchored before hbefore
  have hsplit := h.split_eq
  rw [hanchor]
  constructor
  · rintro rfl
    rw [List.append_cancel_left hsplit, hhead]
  · intro hnext
    obtain ⟨zs', rfl⟩ := List.head?_eq_some_iff.1 hnext
    obtain ⟨rear', rfl⟩ := List.head?_eq_some_iff.1 hhead
    have hnodup := h.erased.wellFormed.forest.nodup_descendants_root
    rw [h.rest] at hnodup
    exact (split_unique hsplit hnodup).1.symm

/-- From where the scan goes on, it comes to the first marker next. -/
theorem search_next (ht : t.Proper) (hxs : xs ≠ []) {place : NodeId} (hplace : zs.head? = some place) :
    ∃ e' split? found?, e.search t place = ⟨e', split?, .ok found?⟩ ∧
      found?.bind e'.text? = (e.payloadsAt t (e.onward zs.head?)).head?.map fun q ↦ String.ofList (t.enclose q) := by
  obtain ⟨hforest, htree⟩ := h.tree
  obtain ⟨zs, rfl⟩ := List.head?_eq_some_iff.1 hplace
  obtain ⟨ahead, rest, hne, hwhole⟩ : ∃ ahead rest, ahead ≠ [] ∧ e.descendants e.root = ahead ++ place :: rest := by
    have hcopy := List.ne_nil_of_mem h.mem_self
    rcases List.append_eq_append_iff.1 h.split_eq with ⟨between, hfront, hrest⟩ | ⟨between, -, hrear⟩
    · cases between with
      | nil => exact ⟨front ++ e.descendants copied, zs, by simp [hcopy], by rw [htree, List.append_assoc, hrest, List.nil_append]⟩
      | cons k ks =>
        obtain ⟨rfl, -⟩ := List.cons.inj hrest
        exact ⟨xs, ks ++ (e.descendants copied ++ rear), hxs, by rw [htree, hfront, List.append_assoc, List.cons_append]⟩
    · exact ⟨front ++ (e.descendants copied ++ between), zs, by simp [hcopy], by rw [htree, hrear]; simp only [List.append_assoc]⟩
  have honward := hforest.onward_head? hwhole
  rw [hplace]
  rw [List.head?_cons] at honward
  rw [honward]
  exact hforest.search_onward ht hwhole hne

end Copied

theorem findAnchor?_on {name? : Option String} {anchor? : Option NodeId} {r₁ : RunState}
    (h : (findAnchor? name?).on r = (.ok anchor?, r₁)) :
    r₁ = r ∧ (name? = none ∧ anchor? = none ∨ ∃ name anchor, name? = some name ∧ anchor? = some anchor ∧
      r.document.named? name = some anchor) := by
  cases name? with
  | none =>
    obtain ⟨hnone, rfl⟩ := Prod.mk.inj h
    exact ⟨rfl, .inl ⟨rfl, (Except.ok.inj hnone).symm⟩⟩
  | some name =>
    obtain ⟨anchor, r₂, hfound, hresult⟩ := on_bind_eq_ok h
    obtain ⟨hnamed, rfl⟩ := findNamed_eq_ok hfound
    obtain ⟨hsome, rfl⟩ := Prod.mk.inj hresult
    exact ⟨rfl, .inr ⟨name, anchor, rfl, (Except.ok.inj hsome).symm, hnamed⟩⟩

/-- A named element that still has a parent when the placeholder has gone is still in the tree. -/
theorem isAttached_of_named {name : String} {id p : NodeId} (hd : d.Forest) (hx : d.isText s.node = true)
    (herased : d.Erased m s.node next) (hdelete : d.deletePlaceholder s.node = .ok m) (hnamed : d.named? name = some id)
    (hparent : m.parent? id = some p) : m.isAttached id = true ∧ d.parent? id = some p := by
  obtain ⟨-, -, -, hparents⟩ := detach_eq_ok hdelete
  rw [hparents] at hparent
  split_ifs at hparent with hroot
  refine ⟨?_, hparent⟩
  obtain ⟨xs, zs, hbefore, hafter, -⟩ := herased.parts
  have hin : id ∈ d.descendants d.root := List.mem_of_find?_eq_some hnamed
  have hnotext : d.isText id = false := by
    obtain ⟨tag, attrs, hdata⟩ := data?_of_named hnamed
    rw [isText, text?, hdata]
    rfl
  -- no element goes with the placeholder but its paragraph
  have hstays : id ∉ d.descendants (d.removalRoot s.node) := fun hgone ↦ by
    rcases d.removalRoot_cases s.node with hself | ⟨-, hblock, -⟩
    · rw [hself, hd.descendants_text hx, List.mem_singleton] at hgone
      rw [hgone, hx] at hnotext
      contradiction
    · rcases herased.gone id hgone with rfl | rfl | ⟨hblank, -⟩
      · rw [hx] at hnotext
        contradiction
      · exact hroot hblock.symm
      · rw [isText_of_blank hblank] at hnotext
        contradiction
  rw [herased.wellFormed.forest.isAttached_iff_mem, hafter]
  rw [hbefore] at hin
  simp only [List.mem_append] at hin ⊢
  tauto

theorem on_clone_eq_ok {element : NodeId} {name newName : String} {c : Document} {given outcome : Outcome}
    {place : NodeId → Document → Except DocumentError Document} (hon : (do
      let clone ← editFor fun d ↦ d.deepClone element
      change fun d ↦ d.setAttr clone nameAttr newName
      edit fun d ↦ place clone d
      log (.clonedElement name newName)
      return given : Run Outcome).on r = (.ok outcome, r')) (hcopy : r.document.deepClone element = .ok (copied, c)) :
    outcome = given ∧ place copied (c.setAttr copied nameAttr newName) = .ok r'.document := by
  have hchange : (change fun d ↦ d.setAttr copied nameAttr newName).on { r with document := c } =
      (.ok (), { r with document := c.setAttr copied nameAttr newName }) := rfl
  rw [on_bind_ok (on_editFor hcopy), on_bind_ok hchange] at hon
  obtain ⟨⟨⟩, r₁, hedit, hend⟩ := on_bind_eq_ok hon
  obtain ⟨e, hplace, rfl⟩ := on_edit_eq_ok hedit
  rw [on_bind_ok (on_log _ _), on_pure] at hend
  obtain ⟨houtcome, rfl⟩ := Prod.mk.inj hend
  exact ⟨(Except.ok.inj houtcome).symm, hplace⟩

theorem copy_eq_ok {outcome : Outcome} (h : s.InPlace t r.document) (hon : (copy.execute s).on r = (.ok outcome, r')) :
    ∃ m next copied xs zs front rear, outcome = .executed next ∧
      Copied r.document m r'.document s next copied xs zs front rear ∧ xs ≠ [] := by
  have hd := h.wellFormed.forest
  obtain ⟨name, r₁, hname, hon₁⟩ := on_bind_eq_ok hon
  obtain ⟨hkey, rfl⟩ := on_ofExcept_eq_ok hname
  obtain ⟨newName, r₂, hnewName, hon₂⟩ := on_bind_eq_ok hon₁
  obtain ⟨hnewKey, rfl⟩ := on_ofExcept_eq_ok hnewName
  obtain ⟨element, r₃, hfound, hon₃⟩ := on_bind_eq_ok hon₂
  obtain ⟨hnamed, rfl⟩ := findNamed_eq_ok hfound
  obtain ⟨anchor?, r₄, hanchor, hon₄⟩ := on_bind_eq_ok hon₃
  obtain ⟨rfl, hanchor⟩ := findAnchor?_on hanchor
  obtain ⟨result, r₅, hdelete, hon₅⟩ := on_bind_eq_ok hon₄
  obtain ⟨m, next, rfl, rfl, hdeleted, herased⟩ := h.deletePlaceholder_eq_ok hdelete
  obtain ⟨xs, zs, hmarker, hrest, hnext⟩ := herased.parts
  have hxs : xs ≠ [] := by
    obtain ⟨above, habove⟩ := Option.ne_none_iff_exists'.1 (detach_eq_ok hdeleted).1
    exact hd.front_ne_nil habove hmarker
  have hm := herased.wellFormed.forest
  -- what is copied is still in the tree, below another node
  rw [on_bind_ok (on_document _)] at hon₅
  dsimp only at hon₅
  cases hparent : m.parent? element with
  | none => simp [hparent] at hon₅
  | some parent =>
    rw [hparent] at hon₅
    dsimp only at hon₅
    obtain ⟨hattached, hparent'⟩ := isAttached_of_named hd h.text herased hdeleted hnamed hparent
    obtain ⟨tag, attrs, hdata⟩ := data?_of_named hnamed
    obtain ⟨xsub, data, gs, hx⟩ := hm.exists_place (known_of_parent? hparent)
    obtain rfl : data = .element tag attrs := by
      have hsame := herased.data element
      rw [hx.data?, hdata] at hsame
      exact Option.some.inj hsame
    rcases hanchor with ⟨hnone, rfl⟩ | ⟨before, anchor, hbefore, rfl, hanchored⟩
    · obtain ⟨c, e, front, rear, hcopy, hplace, hcloned, hlast⟩ := hm.cloned_last hx newName hattached hparent
      obtain ⟨rfl, hplaced⟩ := on_clone_eq_ok hon₅ hcopy
      obtain rfl := Except.ok.inj (hplace.symm.trans hplaced)
      refine ⟨m, next, m.fresh, xs, zs, front, rear, rfl, ⟨herased, hmarker, hrest, hnext, ?_, fun before hbefore ↦ ?_⟩, hxs⟩
      · exact ⟨name, newName, element, parent, requireStr_eq_ok hkey, hnamed, hparent', requireStr_eq_ok hnewKey, hcloned, fun _ ↦ hlast⟩
      · rw [hnone] at hbefore
        contradiction
    · -- so is what the copy goes in front of
      cases habove : m.parent? anchor with
      | none =>
        have hknown : m.node? anchor ≠ none := fun hunknown ↦ by
          obtain ⟨_, _, hanchorData⟩ := data?_of_named hanchored
          rw [← herased.data, Document.data?, hunknown] at hanchorData
          contradiction
        obtain ⟨c, _, hcopy, -, -, -, -, -, hstay⟩ := hm.renamed_copy hx newName
        obtain ⟨-, hplaced⟩ := on_clone_eq_ok hon₅ hcopy
        obtain ⟨⟨⟩, -, hplaced⟩ := except_bind_eq_ok.1 hplaced
        rw [parent?_eq_of_node?_eq (hstay anchor hknown), habove] at hplaced
        contradiction
      | some p =>
        obtain ⟨hyattached, -⟩ := isAttached_of_named hd h.text herased hdeleted hanchored habove
        obtain ⟨c, e, front, rear, hcopy, hplace, hcloned, hhead⟩ := hm.cloned_before hx newName hyattached habove
        obtain ⟨rfl, hplaced⟩ := on_clone_eq_ok hon₅ hcopy
        obtain rfl := Except.ok.inj (hplace.symm.trans hplaced)
        refine ⟨m, next, m.fresh, xs, zs, front, rear, rfl, ⟨herased, hmarker, hrest, hnext, ?_, fun before' hbefore' ↦ ?_⟩, hxs⟩
        · refine ⟨name, newName, element, parent, requireStr_eq_ok hkey, hnamed, hparent', requireStr_eq_ok hnewKey, hcloned, ?_⟩
          intro hnone
          rw [hnone] at hbefore
          contradiction
        · obtain rfl : before = before' := Option.some.inj (hbefore.symm.trans hbefore')
          exact ⟨anchor, hanchored, hhead⟩

/-- Where the scan goes on when an element has been copied: behind the place of the placeholder. A copy
that stands behind that place is ahead of the scan, and with it all its markers, unless it stands right
there, in front of the node that the scan goes on at. -/
theorem copy_resumes {outcome : Outcome} (ht : t.Proper) (h : s.InPlace t r.document)
    (hon : (copy.execute s).on r = (.ok outcome, r')) : ∃ m next copied xs zs front rear, outcome = .executed next ∧
      Copied r.document m r'.document s next copied xs zs front rear ∧
      (∀ p, Scanner.resumption r'.document p next = zs.head?) ∧
      (xs <+: front → (copied ∈ r'.document.onward zs.head? ↔ front ≠ xs)) ∧
      (∀ between, front = xs ++ between → r'.document.onward zs.head? =
        if between = [] then rear else between ++ (r'.document.descendants copied ++ rear)) ∧
      (∀ before, s.str? "insertBefore" = some before → (front = xs ↔ zs.head? = r.document.named? before)) ∧
      ∀ place, zs.head? = some place → ∃ e split? found?, r'.document.search t place = ⟨e, split?, .ok found?⟩ ∧
        found?.bind e.text? = (r'.document.payloadsAt t (r'.document.onward zs.head?)).head?.map fun q ↦ String.ofList (t.enclose q) := by
  obtain ⟨m, next, copied, xs, zs, front, rear, houtcome, hcopied, hxs⟩ := copy_eq_ok h hon
  refine ⟨m, next, copied, xs, zs, front, rear, houtcome, hcopied, hcopied.resumption_eq, hcopied.mem_onward_iff, ?_,
    fun _ ↦ hcopied.front_eq_iff, fun _ ↦ hcopied.search_next ht hxs⟩
  intro between hbetween
  split_ifs with hnone
  · exact hcopied.onward_beside (by rw [hbetween, hnone, List.append_nil])
  · exact hcopied.onward_between hbetween hnone

theorem exists_on {α : Type} {x : Run α} {result : Except RunError α} (h : (x.on r).1 = result) : ∃ r', x.on r = (result, r') := by
  rw [← h]
  exact ⟨(x.on r).2, rfl⟩

def copySite : Document :=
  ⟨0, #[⟨.element "doc" [], none, [⟨0, 1⟩, ⟨0, 3⟩]⟩, ⟨.element "p" [], some ⟨0, 0⟩, [⟨0, 2⟩]⟩,
    ⟨.text "$\x7bClone name:\"a\", newName:\"b\", insertBefore:\"a\"\x7d", some ⟨0, 1⟩, []⟩,
    ⟨.element "section" [("name", "a")], some ⟨0, 0⟩, [⟨0, 4⟩]⟩, ⟨.element "p" [], some ⟨0, 3⟩, [⟨0, 5⟩]⟩,
    ⟨.text "$\x7b@x\x7d", some ⟨0, 4⟩, []⟩]⟩

theorem wellFormed_copySite : copySite.WellFormed := by
  let tree : Grove := .single ⟨0, 0⟩ (.element "doc" [])
    (.tree ⟨0, 1⟩ (.element "p" []) (.single ⟨0, 2⟩ (.text "$\x7bClone name:\"a\", newName:\"b\", insertBefore:\"a\"\x7d") .bare)
      (.single ⟨0, 3⟩ (.element "section" [("name", "a")])
        (.single ⟨0, 4⟩ (.element "p" []) (.single ⟨0, 5⟩ (.text "$\x7b@x\x7d") .bare))))
  have htree : copySite.Stands tree := by
    refine ⟨⟨_, _, _, rfl⟩, ?_, by decide, ?_⟩
    · simp [tree, copySite, Document.Holds, Grove.single, tops, Document.node?]
    · simp [tree, Grove.single, Grove.Proper, NodeData.IsText]
  exact htree.wellFormed rfl (by decide)

/-- The copy goes in front of the element right behind the placeholder, where the scan goes on. -/
theorem copy_resumes_beside : ∃ (s : Selection) (r r' : RunState) (copied : NodeId), s.InPlace .default r.document ∧
    (copy.execute s).on r = (.ok (.executed (.at ⟨0, 3⟩)), r') ∧ copied ∈ r'.document.descendants r'.document.root ∧
    copied ∉ r'.document.onward (some ⟨0, 3⟩) := by
  let s : Selection := ⟨⟨0, 2⟩, ⟨"Clone", [("name", .str "a"), ("newName", .str "b"), ("insertBefore", .str "a")], none⟩,
    some (.ofDelimiters .default), .empty, ⟨⟨0, 1⟩, .midnight⟩⟩
  let r : RunState := ⟨copySite, .ofData .null, [], Services.ofTtl 0, .empty, 0, 1, []⟩
  have hplace : s.InPlace .default r.document := ⟨rfl, wellFormed_copySite, by decide, by decide⟩
  have hfirst : ((copy.execute s).on r).1 = .ok (.executed (.at ⟨0, 3⟩)) := by decide +kernel
  obtain ⟨r', hon⟩ := exists_on hfirst
  obtain ⟨m, next, copied, xs, zs, front, rear, houtcome, hcopied, hresumes, hahead, -, hbeside, -⟩ :=
    copy_resumes Delimiters.proper_default hplace hon
  obtain rfl := Outcome.executed.inj houtcome
  have hhead := Continuation.toward_eq_at hcopied.next.symm
  have hfront : front = xs := (hbeside "a" rfl).2 (hhead.trans (by decide))
  refine ⟨s, r, r', copied, hplace, hon, ?_, fun hin ↦ ?_⟩
  · rw [hcopied.tree.2]
    exact List.mem_append_right _ (List.mem_append_left _ hcopied.mem_self)
  · rw [← hhead] at hin
    exact (hahead (hfront ▸ List.prefix_rfl)).1 hin hfront

end Handler

end Stencil
