import Stencil.Proofs.Grove.Removal
import Stencil.Proofs.Run.Spared
/-!
What the removal of a placeholder takes away. With the placeholder goes its paragraph, and then
nothing but blanks stands beside it there; all else stays in the tree, and the scan goes on behind
what has gone. Only the root stays where it is, also when it is that paragraph.
-/

namespace Stencil

open Grove

namespace Document

variable {d e : Document} {f : Frame} {fs : List Frame} {g sub : Grove} {a id x : NodeId} {data : NodeData}

/-- Nothing but blanks would be left of the tree without a text: it is the root, or it stands alone in
a root that is a paragraph. -/
def FillsRoot (d : Document) (x : NodeId) : Prop :=
  x = d.root ∨ d.tag? d.root = some paragraphTag ∧ d.parent? x = some d.root ∧
    ∀ c ∈ d.children d.root, c ≠ x → d.isBlankText c = true

instance (d : Document) (x : NodeId) : Decidable (d.FillsRoot x) := inferInstanceAs (Decidable (_ ∨ _ ∧ _ ∧ _))

/-- What is left of a document when a placeholder is removed, and where the scan goes on. -/
structure Erased (d e : Document) (x : NodeId) (next : Continuation) : Prop where
  wellFormed : e.WellFormed
  root : e.root = d.root
  data : ∀ id, e.data? id = d.data? id
  parents : ∀ id, id ≠ d.removalRoot x → e.parent? id = d.parent? id
  parts : ∃ xs zs, d.descendants d.root = xs ++ d.descendants (d.removalRoot x) ++ zs ∧
    e.descendants e.root = xs ++ zs ∧ next = .toward zs.head?
  gone : ∀ id ∈ d.descendants (d.removalRoot x), id = x ∨ id = d.blockOf x ∨
    d.isBlankText id = true ∧ d.parent? id = some (d.blockOf x)
  text : ∃ front left marker right rear, d.text? x = some marker ∧
    Text.allBlank left.toList = true ∧ Text.allBlank right.toList = true ∧
    d.textContent d.root = front ++ (left ++ marker ++ right) ++ rear ∧ e.textContent e.root = front ++ rear
  outside : ∀ id, d.isAttached id = true → id ∉ d.descendants (d.blockOf x) → e.isAttached id = true
  siblings : ∀ id, d.parent? id = d.parent? x → id ≠ x → d.isBlankText id = false → e.isAttached id = true
  resumes : ∀ id, next = .at id → e.isAttached id = true

/-! ### Paragraphs of blanks -/

theorem isText_of_blank (h : d.isBlankText id = true) : d.isText id = true := by
  rw [isBlankText] at h
  rw [isText]
  cases htext : d.text? id with
  | none => simp [htext] at h
  | some s => rfl

/-- Texts next to one another have nothing below them. -/
theorem Holds.order_eq_tops {p? : Option NodeId} (h : d.Holds p? g) (hproper : g.Proper)
    (htext : ∀ c ∈ g.tops, d.isText c = true) : g.order = g.tops := by
  induction g with
  | bare => rfl
  | tree top data below rest _ ih =>
    rw [tops, List.forall_mem_cons] at htext
    obtain ⟨htop, hrest⟩ := htext
    have hdata : data.IsText := by
      rw [isText, text?, Document.data?, h.1] at htop
      cases data with
      | element => simp at htop
      | text s => exact ⟨s, rfl⟩
    rw [order, tops, hproper.1 hdata, order_bare, List.nil_append, ih h.2.2 hproper.2.2 hrest]

theorem removalRoot_cases (d : Document) (x : NodeId) : d.removalRoot x = x ∨ d.removalRoot x ≠ x ∧
    d.removalRoot x = d.blockOf x ∧ d.isAttached (d.blockOf x) = true ∧ d.tag? (d.blockOf x) = some paragraphTag ∧
      ∀ c ∈ d.children (d.blockOf x), c ≠ x → d.isBlankText c = true := by
  by_cases hself : d.removalRoot x = x
  · exact .inl hself
  right
  obtain ⟨hroot, hattached, htag⟩ := (d.removalRoot_eq x).resolve_left hself
  refine ⟨hself, hroot, hattached, htag, fun c hc hne ↦ ?_⟩
  rw [removalRoot] at hself
  split_ifs at hself with hblock hblank
  · exact absurd rfl hself
  · rw [List.all_eq_true] at hblank
    exact hblank c (List.mem_filter.2 ⟨hc, by simpa using hne⟩)
  · exact absurd rfl hself

theorem Stands.mem_descendants (h : d.Stands (plug fs (.single x data sub))) (ha : a ∈ x :: chain fs) : x ∈ d.descendants a := by
  rcases List.mem_cons.1 ha with rfl | ha
  · rw [h.descendants]
    exact List.mem_cons_self ..
  · obtain ⟨f, hf, rfl⟩ := List.mem_map.1 ha
    obtain ⟨inner, outer, rfl⟩ := List.append_of_mem hf
    rw [plug_append, plug_cons] at h
    rw [h.descendants]
    simp [order_plug]

theorem Forest.mem_descendants (hd : d.Forest) (hid : d.node? id ≠ none) (ha : a ∈ id :: d.ancestors id) : id ∈ d.descendants a := by
  obtain ⟨sub, data, fs, hplace⟩ := hd.exists_place hid
  rw [hplace.ancestors] at ha
  exact hplace.mem_descendants ha

theorem Forest.mem_descendants_parent (hd : d.Forest) (hparent : d.parent? id = some a) : id ∈ d.descendants a := by
  obtain ⟨sub, data, fs, hplace⟩ := hd.exists_place (known_of_parent? hparent)
  rw [hplace.parent?] at hparent
  exact hplace.mem_descendants (List.mem_cons_of_mem _ (List.mem_of_mem_head? hparent))

/-- In a paragraph that goes with a placeholder there are texts only, the placeholder among them. -/
theorem Forest.paragraph (hd : d.Forest) (hx : d.isText x = true) (hne : d.blockOf x ≠ x)
    (hblank : ∀ c ∈ d.children (d.blockOf x), c ≠ x → d.isBlankText c = true) :
    d.descendants (d.blockOf x) = d.blockOf x :: d.children (d.blockOf x) ∧ x ∈ d.children (d.blockOf x) := by
  have hknown : d.node? x ≠ none := fun hnone ↦ by simp [isText, text?, Document.data?, hnone] at hx
  have habove := d.blockOf_mem x
  obtain ⟨sub, data, fs, hplace⟩ := hd.exists_place (hd.known_ancestors hknown _ habove)
  have htexts : ∀ c ∈ sub.tops, d.isText c = true := fun c hc ↦ by
    by_cases hcx : c = x
    · rwa [hcx]
    · exact isText_of_blank (hblank c (by rwa [hplace.children]) hcx)
  have horder := hplace.below.order_eq_tops (Grove.proper_single.1 hplace.proper_at).2 htexts
  have hwhole : d.descendants (d.blockOf x) = d.blockOf x :: d.children (d.blockOf x) := by
    rw [hplace.descendants, hplace.children, horder]
  refine ⟨hwhole, ?_⟩
  have hbelow := hd.mem_descendants hknown habove
  rw [hwhole, List.mem_cons] at hbelow
  exact hbelow.resolve_left hne.symm

theorem allBlank_join {ss : List String} (h : ∀ s ∈ ss, Text.allBlank s.toList = true) :
    Text.allBlank (String.join ss).toList = true := by
  induction ss with
  | nil => rfl
  | cons s ss ih =>
    rw [List.forall_mem_cons] at h
    have hrest := ih h.2
    have hfirst := h.1
    rw [Text.allBlank] at hrest hfirst ⊢
    rw [String.join_cons, String.toList_append, List.all_append, hfirst, hrest, Bool.and_self]

theorem allBlank_filterMap {ids : List NodeId} (h : ∀ c ∈ ids, d.isBlankText c = true) :
    Text.allBlank (String.join (ids.filterMap d.text?)).toList = true := by
  apply allBlank_join
  intro s hs
  obtain ⟨c, hc, htext⟩ := List.mem_filterMap.1 hs
  have hblank := h c hc
  rwa [isBlankText, htext] at hblank

section Gone

variable (hd : d.Forest) (hx : d.isText x = true)

include hd hx

theorem Forest.descendants_text : d.descendants x = [x] := by
  have hknown : d.node? x ≠ none := fun hnone ↦ by simp [isText, text?, Document.data?, hnone] at hx
  obtain ⟨sub, data, fs, hplace⟩ := hd.exists_place hknown
  rw [hplace.descendants, hplace.bare_of_text hx, order_bare]

theorem Forest.gone : ∀ id ∈ d.descendants (d.removalRoot x), id = x ∨ id = d.blockOf x ∨
    d.isBlankText id = true ∧ d.parent? id = some (d.blockOf x) := by
  intro id hid
  rcases d.removalRoot_cases x with hroot | ⟨hne, hroot, -, -, hblank⟩
  · rw [hroot, hd.descendants_text hx, List.mem_singleton] at hid
    exact .inl hid
  · rw [hroot] at hne hid
    rw [(hd.paragraph hx hne hblank).1, List.mem_cons] at hid
    by_cases hidx : id = x
    · exact .inl hidx
    · exact .inr (hid.imp_right fun hchild ↦ ⟨hblank id hchild hidx, (hd.wellFormed.linked _ _).1 hchild⟩)

theorem Forest.blockOf_not_sibling (hne : d.blockOf x ≠ x) (hparent : d.parent? (d.blockOf x) = d.parent? x) :
    d.blockOf x ∉ d.descendants (d.removalRoot x) := by
  intro hin
  rcases d.removalRoot_cases x with hroot | ⟨-, hroot, -, -, hblank⟩
  · rw [hroot, hd.descendants_text hx, List.mem_singleton] at hin
    exact hne hin
  · have hchild := (hd.paragraph hx hne hblank).2
    rw [hd.wellFormed.linked, ← hparent] at hchild
    exact hd.wellFormed.acyclic _ (.single hchild)

/-- The texts that go are the placeholder's and blanks around it. -/
theorem Forest.gone_texts : ∃ left marker right, d.text? x = some marker ∧ Text.allBlank left.toList = true ∧
    Text.allBlank right.toList = true ∧
    String.join ((d.descendants (d.removalRoot x)).filterMap d.text?) = left ++ marker ++ right := by
  obtain ⟨marker, hmarker⟩ := Option.isSome_iff_exists.1 hx
  rcases d.removalRoot_cases x with hroot | ⟨hne, hroot, -, htag, hblank⟩
  · refine ⟨"", marker, "", hmarker, rfl, rfl, ?_⟩
    rw [hroot, hd.descendants_text hx]
    simp [hmarker, String.join]
  · rw [hroot] at hne
    obtain ⟨hwhole, hchild⟩ := hd.paragraph hx hne hblank
    have hnotext : d.text? (d.blockOf x) = none := by
      rw [tag?] at htag
      rw [text?]
      cases hdata : d.data? (d.blockOf x) with
      | none => rfl
      | some data => cases data <;> simp [hdata] at htag ⊢
    obtain ⟨left, right, hsplit⟩ := List.append_of_mem hchild
    have hnodup := hd.wellFormed.distinct (d.blockOf x)
    rw [hsplit] at hnodup
    have hapart : x ∉ left ++ right := (List.nodup_middle.1 hnodup).notMem
    have hblanks : ∀ c ∈ left ++ right, d.isBlankText c = true := fun c hc ↦ by
      refine hblank c ?_ fun heq ↦ hapart (heq ▸ hc)
      rw [hsplit, List.mem_append, List.mem_cons]
      rw [List.mem_append] at hc
      tauto
    rw [List.forall_mem_append] at hblanks
    refine ⟨_, marker, _, hmarker, allBlank_filterMap hblanks.1, allBlank_filterMap hblanks.2, ?_⟩
    rw [hroot, hwhole, hsplit]
    simp [hnotext, hmarker, String.join_append, String.append_assoc]

end Gone

/-! ### The removal -/

theorem Forest.isAttached_sibling (hd : d.Forest) (hattached : d.isAttached x = true) (hroot : x ≠ d.root)
    (hparent : d.parent? id = d.parent? x) : d.isAttached id = true := by
  obtain ⟨g, hg, htop, horder⟩ := hd.exists_root
  rw [hd.isAttached_iff_mem, horder] at hattached ⊢
  rcases hg.holds.parent?_mem x hattached with ⟨hxtop, -⟩ | ⟨p, hp, hxp, -⟩
  · rw [htop, List.mem_singleton] at hxtop
    exact absurd hxtop hroot
  · exact hg.holds.children_mem p hp id ((hd.wellFormed.linked p id).2 (hparent.trans hxp))

/-- A placeholder of the tree is removed, unless what goes with it is on top. -/
theorem Forest.erased (hd : d.Forest) (hx : d.isText x = true) (hattached : d.isAttached x = true)
    (hroot : d.removalRoot x ≠ d.root) : ∃ e, d.deletePlaceholder x = .ok e ∧
      Erased d e x (.toward (d.nextAfter? (d.removalRoot x))) := by
  -- what goes is in the tree, below another node
  have hgoes : d.isAttached (d.removalRoot x) = true := by
    rcases d.removalRoot_cases x with hself | ⟨-, hblock, hblockAttached, -⟩
    · rwa [hself]
    · rwa [hblock]
  obtain ⟨g, hg, htop, horder⟩ := hd.exists_root
  have hin := hgoes
  rw [hd.isAttached_iff_mem, horder] at hin
  obtain ⟨sub, data, fs, rfl⟩ := hg.exists_place hin
  obtain - | ⟨f, fs⟩ := fs
  · rw [plug_nil, tops_single] at htop
    exact absurd (List.cons.inj htop).1 hroot
  obtain ⟨e, hdetach, hforest, hstands, hgrows⟩ := hg.detach hd
  obtain ⟨-, -, hdata, hparent⟩ := detach_eq_ok hdetach
  have htop' : (plug fs (.single f.id f.data (f.left ++ f.right))).tops = [e.root] := by
    rw [hgrows.root, ← htop, tops_plug, tops_plug, summit_cons]
  have hbefore : d.descendants d.root = before (f :: fs) ++ d.descendants (d.removalRoot x) ++ behind (f :: fs) := by
    rw [horder, order_plug, order_single, hg.descendants]
  have hafter : e.descendants e.root = before (f :: fs) ++ behind (f :: fs) := by
    rw [hstands.descendants_root htop', order_plug, order_single, order_append, before, behind]
    simp only [List.append_assoc, List.cons_append]
  have hnext : d.nextAfter? (d.removalRoot x) = (behind (f :: fs)).head? := hg.nextAfter?
  have hstill : ∀ id, d.isAttached id = true → id ∉ d.descendants (d.removalRoot x) → e.isAttached id = true := by
    intro id hid hout
    rw [hd.isAttached_iff_mem, hbefore, List.mem_append, List.mem_append] at hid
    rw [hforest.isAttached_iff_mem, hafter, List.mem_append]
    tauto
  have hgone := hd.gone hx
  have hknown : d.node? x ≠ none := fun hnone ↦ by simp [isText, text?, Document.data?, hnone] at hx
  have hxroot : x ≠ d.root := fun heq ↦ hroot (by
    rcases d.removalRoot_eq x with hself | ⟨hblock, -⟩
    · rw [hself, heq]
    · rw [hblock, heq, hd.blockOf_root])
  refine ⟨e, hdetach, hforest.wellFormed, hgrows.root, hdata, fun id hid ↦ by rw [hparent, if_neg hid],
    ⟨_, _, hbefore, hafter, by rw [hnext]⟩, hgone, ?_, ?_, ?_, ?_⟩
  · obtain ⟨left, marker, right, hmarker, hleft, hright, hjoin⟩ := hd.gone_texts hx
    have htexts : e.text? = d.text? := funext fun id ↦ by rw [text?, text?, hdata]
    refine ⟨String.join ((before (f :: fs)).filterMap d.text?), left, marker, right,
      String.join ((behind (f :: fs)).filterMap d.text?), hmarker, hleft, hright, ?_, ?_⟩
    · rw [textContent, hbefore, List.filterMap_append, List.filterMap_append, String.join_append, String.join_append, hjoin]
    · rw [textContent, hafter, htexts, List.filterMap_append, String.join_append]
  · intro id hid hout
    have habove := d.blockOf_mem x
    refine hstill id hid fun hin ↦ hout ?_
    rcases hgone id hin with rfl | rfl | ⟨-, hchild⟩
    · exact hd.mem_descendants hknown habove
    · exact hd.mem_descendants (hd.known_ancestors hknown _ habove) (List.mem_cons_self ..)
    · exact hd.mem_descendants_parent hchild
  · intro id hsame hne hblank
    apply hstill id (hd.isAttached_sibling hattached hxroot hsame)
    intro hin
    rcases hgone id hin with rfl | rfl | ⟨hid, -⟩
    · exact hne rfl
    · -- the paragraph is no sibling of a text in it
      exact hd.blockOf_not_sibling hx hne hsame hin
    · rw [hid] at hblank
      contradiction
  · intro id hat
    have hhead := hnext.symm.trans (Continuation.toward_eq_at hat)
    rw [hforest.isAttached_iff_mem, hafter]
    exact List.mem_append_right _ (List.mem_of_mem_head? hhead)

/-- What goes with a placeholder is on top of the tree only when the placeholder fills it. -/
theorem Forest.removalRoot_eq_root (hd : d.Forest) (hx : d.isText x = true) : d.removalRoot x = d.root ↔ d.FillsRoot x := by
  constructor
  · intro hroot
    rcases d.removalRoot_cases x with hself | ⟨hne, hblock, -, htag, hblank⟩
    · exact .inl (hself.symm.trans hroot)
    · rw [hblock] at hroot hne
      have hchild := (hd.paragraph hx hne hblank).2
      rw [hroot] at htag hblank hchild
      exact .inr ⟨htag, (hd.wellFormed.linked _ _).1 hchild, hblank⟩
  · rintro (rfl | ⟨htag, hparent, hblank⟩)
    · rcases d.removalRoot_eq d.root with hself | ⟨hblock, -⟩
      · exact hself
      · rw [hblock, hd.blockOf_root]
    · obtain ⟨sub, data, fs, hplace⟩ := hd.exists_place (known_of_parent? hparent)
      have hne : x ≠ d.root := fun heq ↦ by
        rw [heq, hd.wellFormed.topmost] at hparent
        contradiction
      have hnotag : (d.tag? x == some paragraphTag) = false := by
        rw [isText, text?] at hx
        rw [tag?]
        cases hdata : d.data? x with
        | none => simp [hdata] at hx
        | some data => cases data <;> simp [hdata] at hx ⊢
      have hblock : d.blockOf x = d.root := by
        obtain ⟨rest, hrest⟩ : ∃ rest, d.ancestors x = d.root :: rest := by
          rw [hplace.parent?] at hparent
          rw [hplace.ancestors]
          exact ⟨_, (List.cons_head?_tail hparent).symm⟩
        rw [blockOf, hrest, List.find?_cons, hnotag, List.find?_cons, htag]
        simp
      have hattached : d.isAttached d.root = true := by simp [isAttached]
      have hall : ((d.children d.root).filter (· ≠ x)).all d.isBlankText = true := by
        rw [List.all_eq_true]
        intro c hc
        obtain ⟨hc, hcx⟩ := List.mem_filter.1 hc
        exact hblank c hc (by simpa using hcx)
      rw [removalRoot, hblock, if_neg (by simp [hne.symm, hattached]), if_pos hall]

theorem Forest.detach_root (hd : d.Forest) : d.detach d.root = .error .rootNode := by
  obtain ⟨n, hn⟩ := Option.ne_none_iff_exists'.1 hd.wellFormed.rooted
  simp [Document.detach, check_ok hn, bind, Except.bind]

end Document

/-- The removal of a placeholder takes the marker away, with blanks and the paragraph around it at
most, and tells where the scan goes on behind that. It is refused, and changes nothing, only where
nothing but blanks would be left of the tree. -/
theorem Selection.deletePlaceholder_erases {t : Delimiters} {s : Selection} {r : RunState} (h : s.InPlace t r.document) :
    (¬r.document.FillsRoot s.node → ∃ next e, s.deletePlaceholder.on r = (.ok (some next), { r with document := e }) ∧
      Document.Erased r.document e s.node next) ∧
    (r.document.FillsRoot s.node → s.deletePlaceholder.on r = (.error (.document .rootNode), r)) := by
  have hd := h.wellFormed.forest
  have hdelete : s.deletePlaceholder = do return some (← removePlaceholder s.node) := by
    rw [Selection.deletePlaceholder, h.toolkit]
  constructor
  · intro hfree
    have hroot : r.document.removalRoot s.node ≠ r.document.root := fun heq ↦ hfree ((hd.removalRoot_eq_root h.text).1 heq)
    obtain ⟨e, he, herased⟩ := hd.erased h.text h.attached hroot
    refine ⟨_, e, ?_, herased⟩
    have hremove : (removePlaceholder s.node).on r =
        (.ok (.toward (r.document.nextAfter? (r.document.removalRoot s.node))), { r with document := e }) := by
      rw [removePlaceholder, Run.on_bind_ok (Run.on_document r), Run.on_bind_ok (Run.on_edit he), Continuation.ofNode_behind]
      rfl
    rw [hdelete, Run.on_bind_ok hremove, Run.on_pure]
  · intro hfills
    have hrefused : r.document.deletePlaceholder s.node = .error .rootNode := by
      rw [Document.deletePlaceholder, (hd.removalRoot_eq_root h.text).2 hfills, hd.detach_root]
    have hedit : (Run.edit fun d ↦ d.deletePlaceholder s.node).on r = (.error (.document .rootNode), r) := by
      rw [Run.edit, Run.on_bind_ok (Run.on_document r), hrefused, Run.on_bind_error (Run.on_ofExcept_error _ _ _)]
    have hremove : (removePlaceholder s.node).on r = (.error (.document .rootNode), r) := by
      rw [removePlaceholder, Run.on_bind_ok (Run.on_document r), Run.on_bind_error hedit]
    rw [hdelete, Run.on_bind_error hremove]

theorem Selection.InPlace.deletePlaceholder_eq_ok {t : Delimiters} {s : Selection} {r r₁ : RunState} {next? : Option Continuation}
    (h : s.InPlace t r.document) (hdelete : s.deletePlaceholder.on r = (.ok next?, r₁)) :
    ∃ e next, next? = some next ∧ r₁ = { r with document := e } ∧ r.document.deletePlaceholder s.node = .ok e ∧
      Document.Erased r.document e s.node next := by
  have hd := h.wellFormed.forest
  rw [Selection.deletePlaceholder, h.toolkit] at hdelete
  obtain ⟨next, r₂, hremove, hresult⟩ := Run.on_bind_eq_ok hdelete
  rw [removePlaceholder, Run.on_bind_ok (Run.on_document r)] at hremove
  obtain ⟨⟨⟩, r₃, hedit, hnext⟩ := Run.on_bind_eq_ok hremove
  obtain ⟨e, he, rfl⟩ := Run.on_edit_eq_ok hedit
  have hroot : r.document.removalRoot s.node ≠ r.document.root := fun heq ↦ by
    rw [Document.deletePlaceholder, heq, hd.detach_root] at he
    contradiction
  obtain ⟨e', he', herased⟩ := hd.erased h.text h.attached hroot
  obtain rfl := Except.ok.inj (he.symm.trans he')
  rw [Continuation.ofNode_behind, Run.on_pure] at hnext
  rw [Run.on_pure] at hresult
  obtain ⟨hplace, rfl⟩ := Prod.mk.inj hnext
  obtain ⟨hgiven, rfl⟩ := Prod.mk.inj hresult
  obtain rfl := Except.ok.inj hplace
  exact ⟨e, _, (Except.ok.inj hgiven).symm, rfl, he, herased⟩

/-- A marker beside a blank text in its paragraph, and a paragraph behind it. -/
def blankBeside : Document :=
  ⟨0, #[⟨.element "doc" [], none, [⟨0, 1⟩, ⟨0, 4⟩]⟩, ⟨.element "p" [], some ⟨0, 0⟩, [⟨0, 2⟩, ⟨0, 3⟩]⟩,
    ⟨.text " ", some ⟨0, 1⟩, []⟩, ⟨.text "$\x7b@a\x7d", some ⟨0, 1⟩, []⟩, ⟨.element "p" [], some ⟨0, 0⟩, [⟨0, 5⟩]⟩,
    ⟨.text "z", some ⟨0, 4⟩, []⟩]⟩

theorem wellFormed_blankBeside : blankBeside.WellFormed := by
  let tree : Grove := .single ⟨0, 0⟩ (.element "doc" [])
    (.tree ⟨0, 1⟩ (.element "p" []) (.tree ⟨0, 2⟩ (.text " ") .bare (.single ⟨0, 3⟩ (.text "$\x7b@a\x7d") .bare))
      (.single ⟨0, 4⟩ (.element "p" []) (.single ⟨0, 5⟩ (.text "z") .bare)))
  have htree : blankBeside.Stands tree := by
    refine ⟨⟨_, _, _, rfl⟩, ?_, by decide, ?_⟩
    · simp [tree, blankBeside, Document.Holds, Grove.single, tops, Document.node?]
    · simp [tree, Grove.single, Grove.Proper, NodeData.IsText]
  exact htree.wellFormed rfl (by decide)

/-- The paragraph goes with the marker and the blank text, and the scan goes on at the next one. -/
theorem Selection.deletePlaceholder_erases_blankBeside : ∃ (t : Delimiters) (s : Selection) (r : RunState),
    s.InPlace t r.document ∧ ¬r.document.FillsRoot s.node ∧ ∃ e, s.deletePlaceholder.on r =
      (.ok (some (.at ⟨0, 4⟩)), { r with document := e }) ∧ e.descendants e.root = [⟨0, 0⟩, ⟨0, 4⟩, ⟨0, 5⟩] := by
  let s : Selection := ⟨⟨0, 3⟩, ⟨"Value", [], none⟩, some (Toolkit.ofDelimiters .default), .empty, ⟨⟨0, 1⟩, .midnight⟩⟩
  let r : RunState := ⟨blankBeside, .ofData .null, [], Services.ofTtl 0, .empty, 0, 1, []⟩
  have hplace : s.InPlace .default r.document := ⟨rfl, wellFormed_blankBeside, by decide, by decide⟩
  have hfree : ¬r.document.FillsRoot s.node := by decide
  obtain ⟨next, e, hon, herased⟩ := (Selection.deletePlaceholder_erases hplace).1 hfree
  obtain ⟨xs, zs, hbefore, hafter, rfl⟩ := herased.parts
  have hgone : r.document.descendants (r.document.removalRoot s.node) = [⟨0, 1⟩, ⟨0, 2⟩, ⟨0, 3⟩] := by decide
  have hroot : r.document.descendants r.document.root = [⟨0, 0⟩] ++ ⟨0, 1⟩ :: [⟨0, 2⟩, ⟨0, 3⟩, ⟨0, 4⟩, ⟨0, 5⟩] := by decide
  have hsplit : [⟨0, 0⟩] ++ ⟨0, 1⟩ :: [⟨0, 2⟩, ⟨0, 3⟩, ⟨0, 4⟩, ⟨0, 5⟩] = xs ++ ⟨0, 1⟩ :: ([⟨0, 2⟩, ⟨0, 3⟩] ++ zs) := by
    rw [← hroot, hbefore, hgone, List.append_assoc]
    rfl
  obtain ⟨rfl, hrest⟩ := Document.split_unique hsplit (by decide)
  obtain rfl : [⟨0, 4⟩, ⟨0, 5⟩] = zs := by simpa using hrest
  exact ⟨.default, s, r, hplace, hfree, e, hon, hafter⟩

end Stencil
