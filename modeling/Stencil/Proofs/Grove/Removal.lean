import Stencil.Proofs.Grove.Slices
/-!
The removal of a placeholder from a tree of any shape. It is refused only where the placeholder, or
the paragraph that goes with it, is on top of the tree.
-/

namespace Stencil

open Grove

namespace Document

variable {d e : Document} {id x : NodeId}

theorem data?_modify {f : Node → Node} (hf : ∀ n, (f n).data = n.data) (id : NodeId) : (d.modify x f).data? id = d.data? id := by
  rw [Document.data?, Document.data?, node?_modify]
  split_ifs with hx
  · rw [hx, Option.map_map]
    exact congrArg (Option.map · (d.node? x)) (funext hf)
  · rfl

theorem parent?_modify {f : Node → Node} (hf : ∀ n, (f n).parent? = n.parent?) (id : NodeId) :
    (d.modify x f).parent? id = d.parent? id := by
  rw [Document.parent?, Document.parent?, node?_modify]
  split_ifs with hx
  · rw [hx]
    cases d.node? x with
    | none => rfl
    | some n => exact hf n
  · rfl

theorem detach_eq_ok (h : d.detach x = .ok e) : d.parent? x ≠ none ∧ Grows d e ∧
    (∀ id, e.data? id = d.data? id) ∧ ∀ id, e.parent? id = if id = x then none else d.parent? id := by
  obtain ⟨⟨⟩, -, h⟩ := except_bind_eq_ok.1 h
  split_ifs at h
  cases hparent : d.parent? x with
  | none => simp [hparent] at h
  | some p =>
    rw [hparent] at h
    obtain rfl := Except.ok.inj h
    refine ⟨by simp, (Grows.modify _ _ _).trans (Grows.modify _ _ _), fun id ↦ ?_, fun id ↦ ?_⟩
    · refine (data?_modify ?_ id).trans (data?_modify ?_ id) <;> exact fun _ ↦ rfl
    split_ifs with hid
    · rw [hid, Document.parent?, node?_modify_self]
      cases (d.modify p _).node? x <;> rfl
    · rw [parent?_eq_of_node?_eq (node?_modify_of_ne hid _)]
      refine parent?_modify ?_ id
      exact fun _ ↦ rfl

theorem Forest.exists_detach (hd : d.Forest) (h : d.parent? x ≠ none) : ∃ e, d.detach x = .ok e ∧ e.Forest := by
  obtain ⟨p, hp⟩ := Option.ne_none_iff_exists'.1 h
  obtain ⟨sub, data, fs, hplace⟩ := hd.exists_place (known_of_parent? hp)
  cases fs with
  | nil => exact absurd hplace.parent? h
  | cons f fs =>
    obtain ⟨e, he, hforest, -⟩ := hplace.detach hd
    exact ⟨e, he, hforest⟩

theorem Forest.detach (hd : d.Forest) (h : d.detach x = .ok e) : e.Forest := by
  obtain ⟨e', he', hforest⟩ := hd.exists_detach (detach_eq_ok h).1
  obtain rfl : e = e' := Except.ok.inj (h.symm.trans he')
  exact hforest

theorem parent?_of_isAttached (h : d.isAttached x = true) (hroot : x ≠ d.root) : d.parent? x ≠ none := fun hnone ↦ by
  have hclimb : d.ancestors x = [] := by
    rw [ancestors]
    cases d.size with
    | zero => rfl
    | succ n => rw [climb, hnone]
  simp [isAttached, hclimb, hroot] at h

theorem Forest.known_ancestors (hd : d.Forest) (hx : d.node? x ≠ none) : ∀ id ∈ x :: d.ancestors x, d.node? id ≠ none := fun id hid ↦ by
  obtain ⟨sub, data, fs, hplace⟩ := hd.exists_place hx
  rw [hplace.ancestors] at hid
  exact hplace.holds.known id (chain_subset_order hid)

theorem blockOf_mem (d : Document) (x : NodeId) : d.blockOf x ∈ x :: d.ancestors x := by
  rw [blockOf]
  cases hfind : (x :: d.ancestors x).find? fun a ↦ d.tag? a == some paragraphTag with
  | none => exact List.mem_cons_self ..
  | some b => exact List.mem_of_find?_eq_some hfind

/-- A placeholder goes alone or with its paragraph, which is in the tree. -/
theorem removalRoot_eq (d : Document) (x : NodeId) : d.removalRoot x = x ∨
    d.removalRoot x = d.blockOf x ∧ d.isAttached (d.blockOf x) = true ∧ d.tag? (d.blockOf x) = some paragraphTag := by
  rw [removalRoot]
  split_ifs with hself hblank
  · exact .inl rfl
  · rw [not_or] at hself
    refine .inr ⟨rfl, by simpa using hself.2, ?_⟩
    have hself := hself.1
    rw [blockOf] at hself ⊢
    cases hfind : (x :: d.ancestors x).find? fun a ↦ d.tag? a == some paragraphTag with
    | none => simp [hfind] at hself
    | some b => simpa using List.find?_some hfind
  · exact .inl rfl

theorem Forest.exists_deletePlaceholder (hd : d.Forest) (h : d.parent? x ≠ none) (hblock : d.blockOf x ≠ d.root) :
    ∃ e, d.deletePlaceholder x = .ok e ∧ e.Forest := by
  refine hd.exists_detach ?_
  rcases d.removalRoot_eq x with heq | ⟨heq, hattached, -⟩
  · rwa [heq]
  · rw [heq]
    exact parent?_of_isAttached hattached hblock

/-- Nodes that have lost their parents, or kept them, have some of the ancestors that they had. -/
theorem Stands.ancestors_prefix : ∀ {fs : List Frame} {x : NodeId} {data : NodeData} {sub : Grove} (n : ℕ),
    d.Stands (plug fs (.single x data sub)) → (∀ id, d.node? id ≠ none → e.parent? id = d.parent? id ∨ e.parent? id = none) →
      e.climb n x <+: chain fs
  | _, _, _, _, 0, _, _ => List.nil_prefix
  | fs, x, _, _, n + 1, h, he => by
    rw [climb]
    rcases he x (h.holds.known x (chain_subset_order (List.mem_cons_self ..))) with hsame | hnone
    · rw [hsame, h.parent?]
      cases fs with
      | nil => exact List.nil_prefix
      | cons f fs =>
        have hup : d.Stands (plug fs (.single f.id f.data (f.left ++ .single x _ _ ++ f.right))) := h
        exact List.cons_prefix_cons.2 ⟨rfl, hup.ancestors_prefix n he⟩
    · rw [hnone]
      exact List.nil_prefix

/-- A paragraph that a node stands in later on it stood in before. -/
theorem Forest.blockOf_eq (hd : d.Forest) (hx : d.node? x ≠ none)
    (he : ∀ id, d.node? id ≠ none → e.parent? id = d.parent? id ∨ e.parent? id = none)
    (hdata : ∀ id ∈ x :: d.ancestors x, e.data? id = d.data? id) (hne : e.blockOf x ≠ x) : e.blockOf x = d.blockOf x := by
  obtain ⟨sub, data, fs, hplace⟩ := hd.exists_place hx
  obtain ⟨rest, hrest⟩ := hplace.ancestors_prefix e.size he
  have hclimb : d.ancestors x = e.ancestors x ++ rest := hplace.ancestors.trans hrest.symm
  have hfound : ∀ a ∈ x :: e.ancestors x, (d.tag? a == some paragraphTag) = (e.tag? a == some paragraphTag) := fun a ha ↦ by
    have hin : a ∈ x :: d.ancestors x := by
      rw [hclimb, ← List.cons_append]
      exact List.mem_append_left _ ha
    rw [tag?, tag?, hdata a hin]
  have hblock : e.blockOf x = ((x :: e.ancestors x).find? fun a ↦ e.tag? a == some paragraphTag).getD x := rfl
  rw [hblock] at hne ⊢
  cases hfind : (x :: e.ancestors x).find? fun a ↦ e.tag? a == some paragraphTag with
  | none => simp [hfind] at hne
  | some b =>
    have hfind' : ((x :: e.ancestors x).find? fun a ↦ d.tag? a == some paragraphTag) = some b := by
      rw [← hfind]
      exact List.find?_congr hfound
    rw [blockOf, hclimb, ← List.cons_append, List.find?_append, hfind', Option.getD_some]
    rfl

theorem Forest.blockOf_root (hd : d.Forest) : d.blockOf d.root = d.root := by
  have hclimb : d.ancestors d.root = [] := by
    rw [ancestors]
    cases d.size with
    | zero => rfl
    | succ n => rw [climb, hd.wellFormed.topmost]
  rw [blockOf, hclimb, List.find?_singleton]
  split_ifs <;> rfl

/-- A placeholder that can be removed can be removed later on, as long as it has its parent, and the
nodes above it hold what they held. -/
theorem Forest.exists_deletePlaceholder_later (hd : d.Forest) (hattached : d.isAttached x = true) (hblock : d.blockOf x ≠ d.root)
    (he : e.Forest) (hroot : e.root = d.root) (hdata : ∀ id ∈ x :: d.ancestors x, e.data? id = d.data? id)
    (hparent : e.parent? x = d.parent? x)
    (hloose : ∀ id, d.node? id ≠ none → e.parent? id = d.parent? id ∨ e.parent? id = none) :
    ∃ e', e.deletePlaceholder x = .ok e' := by
  have hne : x ≠ d.root := fun heq ↦ hblock (heq ▸ hd.blockOf_root)
  have hsome := parent?_of_isAttached hattached hne
  obtain ⟨p, hp⟩ := Option.ne_none_iff_exists'.1 hsome
  refine (he.exists_deletePlaceholder (hparent ▸ hsome) fun heq ↦ hblock ?_).imp fun _ ↦ And.left
  rw [← hd.blockOf_eq (known_of_parent? hp) hloose hdata (by rw [heq, hroot]; exact hne.symm), heq, hroot]

/-- It can be removed after another placeholder. -/
theorem Forest.exists_deletePlaceholder_after {m : Document} {y : NodeId} (hd : d.Forest) (hattached : d.isAttached x = true)
    (hx : d.isText x = true) (hblock : d.blockOf x ≠ d.root) (hkeeps : Keeps d m)
    (hdata : ∀ id ∈ x :: d.ancestors x, m.data? id = d.data? id) (hm : m.Forest) (hne : x ≠ y)
    (hy : m.deletePlaceholder y = .ok e) : ∃ e', e.deletePlaceholder x = .ok e' := by
  obtain ⟨-, hgrows, hedata, heparent⟩ := detach_eq_ok hy
  have hknown : d.node? x ≠ none := fun hnone ↦ by simp [isText, text?, Document.data?, hnone] at hx
  -- a text does not go with another placeholder
  have hapart : x ≠ m.removalRoot y := fun heq ↦ by
    rcases m.removalRoot_eq y with hself | ⟨hparagraph, -, htag⟩
    · exact hne (heq.trans hself)
    · rw [← hparagraph, ← heq, tag?, hdata x (List.mem_cons_self ..)] at htag
      rw [isText, text?] at hx
      cases hdx : d.data? x with
      | none => simp [hdx] at htag
      | some data => cases data <;> simp [hdx] at htag hx
  refine hd.exists_deletePlaceholder_later hattached hblock (hm.detach hy) (hkeeps.toGrows.trans hgrows).root
    (fun id hid ↦ (hedata id).trans (hdata id hid)) ?_ fun id hid ↦ ?_
  · rw [heparent, if_neg hapart, hkeeps.parents x hknown]
  · rw [heparent, hkeeps.parents id hid]
    split_ifs <;> simp

end Document

end Stencil
