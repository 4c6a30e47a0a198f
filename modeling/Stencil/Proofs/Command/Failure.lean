import Stencil.Command.Builtin
import Stencil.Proofs.Edits.Reachable
import Stencil.Proofs.Grove.Removal
import Stencil.Proofs.Grove.Replication
import Stencil.Proofs.Run.Spared
/-!
Failures of commands. A command that fails leaves the run as it was.
-/

namespace Stencil

namespace Handler

open Run Selection

/-- A handler whose commands leave no trace when they fail. -/
def Atomic (h : Handler) : Prop := ∀ s, (h.execute s).Atomic

variable (s : Selection)

theorem atomic_insertion : insertion.Atomic := fun s ↦ by
  refine (s.quiet_value? "value").atomic_bind fun v? ↦ ?_
  split
  · exact s.atomic_writeMissing
  · exact s.atomic_writeMissing
  · exact s.atomic_write _
  · exact atomic_throw _

theorem atomic_closing : closing.Atomic := fun _ ↦ atomic_throw _

theorem atomic_push : push.Atomic := fun s ↦
  (s.quiet_requireStr "key").atomic_bind fun key ↦ (s.quiet_value? "value").atomic_bind fun _ ↦
    (quiet_log _).atomic_bind fun _ ↦ (Run.atomic_push key _).bind_total fun _ ↦ total_pure _

theorem atomic_pop : pop.Atomic := fun s ↦ by
  refine (s.quiet_requireStr "key").atomic_bind fun key ↦ (quiet_log _).atomic_bind fun _ ↦ quiet_model.atomic_bind fun m ↦ ?_
  cases m.scope.pop? key with
  | none => exact atomic_throw _
  | some bound => exact (total_bind (total_setModel _) fun _ ↦ total_pure _).atomic

theorem atomic_cursor : cursor.Atomic := fun s ↦
  (s.quiet_requireStr "value").atomic_bind fun _ ↦ (quiet_ofExcept _ _).atomic_bind fun p ↦
    (atomic_enter p).bind_total fun _ ↦ total_pure _

theorem atomic_definition : definition.Atomic := fun _ ↦
  (quiet_ofExcept _ _).atomic_bind fun _ ↦ (quiet_log _).atomic_bind fun _ ↦
    (total_bind (total_modify _) fun _ ↦ total_pure _).atomic

theorem atomic_picture : picture.Atomic := fun s ↦
  (s.quiet_requireStr "resource").atomic_bind fun handle ↦ (quiet_ofExcept _ _).atomic_bind fun _ ↦
    (quiet_ofExcept _ _).atomic_bind fun _ ↦ (s.atomic_insertImage handle _ _).bind_total fun _ ↦ total_pure _

theorem atomic_writeJoined (items : List String) : (writeJoined s items).Atomic :=
  (quiet_ofExcept _ _).atomic_bind fun _ ↦ s.atomic_write _

theorem atomic_joined : joined.Atomic := fun s ↦ by
  refine (s.quiet_value? "value").atomic_bind fun v? ↦ ?_
  split
  · exact s.atomic_writeMissing
  · exact s.atomic_writeMissing
  · exact atomic_writeJoined s _
  · exact (quiet_ofExcept _ _).atomic_bind fun _ ↦ atomic_writeJoined s _
  · exact atomic_throw _

theorem atomic_writeMoment (m : Calendar.Moment) (format : String) : (writeMoment s m format).Atomic := by
  rw [writeMoment]
  cases m.format? format with
  | none => exact atomic_throw _
  | some text => exact s.atomic_write text

theorem atomic_moment (name : String) (formats : MomentFormats) : (moment name formats).Atomic := fun s ↦ by
  refine (s.quiet_source? "value").atomic_bind fun source? ↦ ?_
  cases source? with
  | none => exact atomic_writeMoment s _ _
  | some source =>
    refine quiet_model.atomic_bind fun m ↦ ?_
    split
    · exact (quiet_ofExcept _ _).atomic_bind fun _ ↦ atomic_writeMoment s _ _
    · exact s.atomic_writeMissing
    · split
      · exact s.atomic_writeMissing
      · exact atomic_throw _

theorem atomic_number : number.Atomic := fun s ↦ by
  refine (s.quiet_value? "value").atomic_bind fun v? ↦ ?_
  split
  · split
    · exact (quiet_ofExcept _ _).atomic_bind fun _ ↦ s.atomic_write _
    · exact s.atomic_writeMissing
  · exact s.atomic_writeMissing

theorem quiet_loopIndex? : (loopIndex? s).Quiet := by
  refine quiet_bind quiet_model fun m ↦ quiet_bind (s.quiet_source? "index") fun source? ↦ ?_
  cases source? <;> exact quiet_pure _

theorem atomic_counter : counter.Atomic := fun s ↦ by
  refine (quiet_loopIndex? s).atomic_bind fun v? ↦ ?_
  split
  · exact s.atomic_write _
  · exact s.atomic_remove

theorem quiet_operand (key : String) : (operand s key).Quiet := by
  refine quiet_bind (s.quiet_value? key) fun v? ↦ ?_
  split
  · exact quiet_pure _
  · exact quiet_pure _
  · split <;> exact quiet_throw _
  · exact quiet_throw _

theorem atomic_calculation : calculation.Atomic := fun s ↦
  (s.quiet_requireStr "key").atomic_bind fun key ↦ (quiet_ofExcept _ _).atomic_bind fun _ ↦
    (quiet_operand s "a").atomic_bind fun _ ↦ (quiet_operand s "b").atomic_bind fun _ ↦
      (quiet_ofExcept _ _).atomic_bind fun _ ↦ (quiet_log _).atomic_bind fun _ ↦
        (Run.atomic_push key _).bind_total fun _ ↦ total_pure _

theorem atomic_concatenation : concatenation.Atomic := fun s ↦
  (s.quiet_requireStr "key").atomic_bind fun key ↦
    (quiet_filterMapM (fun slot ↦ s.quiet_value? slot) slots).atomic_bind fun _ ↦
      (quiet_ofExcept _ _).atomic_bind fun _ ↦ (quiet_log _).atomic_bind fun _ ↦
        (Run.atomic_push key _).bind_total fun _ ↦ total_pure _

end Handler

/-! ### Blocks -/

section Blocks

open Run RunState Grove

variable {t : Delimiters} {s : Selection} {r r₁ r₂ : RunState} {id c : NodeId}

namespace Selection

theorem InPlace.toolkit_eq {d : Document} (h : s.InPlace t d) : s.toolkit = pure (Toolkit.ofDelimiters t) := by
  rw [Selection.toolkit, h.toolkit]

theorem InPlace.toolkit_on {d : Document} (h : s.InPlace t d) (r : RunState) :
    s.toolkit.on r = (.ok (Toolkit.ofDelimiters t), r) := by
  rw [h.toolkit_eq, on_pure]

theorem removePlaceholder_on {e : Document} (h : r.document.deletePlaceholder id = .ok e) :
    ∃ next, (removePlaceholder id).on r = (.ok next, { r with document := e }) := by
  rw [removePlaceholder, on_bind_ok (on_document r), on_bind_ok (on_edit h)]
  exact ⟨_, rfl⟩

theorem removePlaceholder_eq_ok {next : Continuation} (h : (removePlaceholder id).on r = (.ok next, r₁)) :
    ∃ e, r.document.deletePlaceholder id = .ok e ∧ r₁ = { r with document := e } := by
  rw [removePlaceholder, on_bind_ok (on_document r)] at h
  obtain ⟨⟨⟩, r₂, hedit, hnext⟩ := on_bind_eq_ok h
  obtain ⟨e, he, rfl⟩ := on_edit_eq_ok hedit
  exact ⟨e, he, (Prod.mk.inj hnext).2.symm⟩

/-- A state in which the end of the block of a command has been found. -/
structure Encloses (t : Delimiters) (s : Selection) (r r₁ : RunState) (c : NodeId) : Prop where
  spared : r.Spared t s.node r₁
  keeps : Document.Keeps r.document r₁.document
  data : ∀ id ∈ s.node :: r.document.ancestors s.node, r₁.document.data? id = r.document.data? id
  text : r₁.document.isText c = true
  tree : ∃ g xs ys zs, r₁.document.Stands g ∧ g.tops = [r₁.document.root] ∧ g.order = xs ++ s.node :: (ys ++ c :: zs)

namespace Encloses

theorem same (h : s.Encloses t r r₁ c) (hs : r₁.Same r₂) : s.Encloses t r r₂ c where
  spared := h.spared.same hs
  keeps := hs.document ▸ h.keeps
  data := hs.document ▸ h.data
  text := hs.document ▸ h.text
  tree := hs.document ▸ h.tree

/-- The area of the block is isolated, and neither deleting it nor copying it fails. -/
theorem isolate (h : s.Encloses t r r₁ c) (hplace : s.InPlace t r.document) :
    ∃ area r₂, (Area.isolate s.node c).on r₁ = (.ok area, r₂) ∧ (∃ next? r₃, (area.delete none true).on r₂ = (.ok next?, r₃)) ∧
      ∀ t all, ∃ next? r₃, (area.replicate (pure t) all).on r₂ = (.ok next?, r₃) := by
  obtain ⟨g, xs, ys, zs, hg, htops, horder⟩ := h.tree
  have hnode : r₁.document.isText s.node = true := by
    rw [Document.isText, h.spared.marker]
    exact hplace.text
  exact Area.isolate_texts h.spared.wellFormed.forest hg htops horder hnode h.text

/-- When the closing placeholder is gone, the opening one can be removed. -/
theorem deletePlaceholder (h : s.Encloses t r r₁ c) (hplace : s.InPlace t r.document)
    (hblock : r.document.blockOf s.node ≠ r.document.root) {e : Document} (he : r₁.document.deletePlaceholder c = .ok e) :
    ∃ e', e.deletePlaceholder s.node = .ok e' := by
  obtain ⟨g, xs, ys, zs, hg, -, horder⟩ := h.tree
  have hne : s.node ≠ c := fun heq ↦ by
    have hnodup := hg.nodup
    rw [horder, List.nodup_append, List.nodup_cons] at hnodup
    exact hnodup.2.1.1 (heq ▸ by simp)
  exact hplace.wellFormed.forest.exists_deletePlaceholder_after hplace.attached hplace.text hblock h.keeps h.data
    h.spared.wellFormed.forest hne he

end Encloses

/-- A search for the end of a block fails with only cuts behind the placeholder made, or finds it. -/
theorem InPlace.areaEnd (h : s.InPlace t r.document) (openers : List String) (closer : String) :
    ∃ r₁, r.Spared t s.node r₁ ∧ ((s.areaEnd openers closer).on r = (.error (.structure (.noClosing s.command.name closer)), r₁) ∨
      ∃ c, (s.areaEnd openers closer).on r = (.ok c, r₁) ∧ s.Encloses t r r₁ c) := by
  obtain ⟨T, xs, zs, hT, htops, horder⟩ := h.exists_tree
  obtain ⟨r₁, T₁, hpasses, hend⟩ := areaEnd_passes h.toolkit h.wellFormed.forest hT horder h.text openers closer
  have hspared : r.Spared t s.node r₁ := .of_passes hT htops hpasses (by simp)
  refine ⟨r₁, hspared, hend.imp_right fun ⟨c, hok, htext, ys, us, hsplit⟩ ↦ ⟨c, hok, hspared, hpasses.keeps, fun id hid ↦ ?_,
    htext, T₁, xs, ys, us, hpasses.stands, ?_, by rw [hsplit]; simp⟩⟩
  · -- the nodes above the placeholder are in front of it
    obtain ⟨sub, data, fs, rfl, rfl, -⟩ := hT.exists_place_of_order horder
    rw [hT.ancestors] at hid
    refine hpasses.front id ?_
    rcases List.mem_cons.1 hid with rfl | hid
    · simp
    · exact List.mem_append_left _ (chain_subset_before fs id hid)
  · rw [Document.tops_sliced hpasses.sliced, htops, hpasses.keeps.toGrows.root]

end Selection

namespace Handler

open Selection

theorem spares_conditional (h : s.InPlace t r.document) (hblock : r.document.blockOf s.node ≠ r.document.root) :
    Spares t s.node r (conditional.execute s) r := by
  refine spares_ofExcept (.refl h) fun condition _ ↦ ?_
  obtain ⟨r₁, hspared, hfails | ⟨c, hfinds, hencloses⟩⟩ := h.areaEnd ["If"] "EndIf"
  · exact spares_bind_error hfails hspared
  · refine spares_bind_ok hfinds (spares_bind_ok (on_model r₁) (spares_bind_ok (on_log _ r₁) ?_))
    have hencloses := hencloses.same (quiet_log (.evaluated (condition.holds (Condition.orderIn r₁.model))) r₁)
    split_ifs
    · refine spares_bind_ok (h.toolkit_on _) (spares_bind (atomic_edit _) hencloses.spared fun ⟨⟩ r₂ hedit ↦ ?_)
      obtain ⟨e, he, rfl⟩ := on_edit_eq_ok hedit
      obtain ⟨e', he'⟩ := hencloses.deletePlaceholder h hblock he
      obtain ⟨next, hremove⟩ := removePlaceholder_on (r := { r₁ with document := e, log := _ }) he'
      exact spares_of_ok (on_bind_ok hremove)
    · obtain ⟨area, r₂, hisolate, ⟨next?, r₃, hdelete⟩, -⟩ := hencloses.isolate h
      refine spares_bind_ok hisolate (spares_of_ok (on_bind_ok hdelete))

theorem ignoredEnd?_on (h : s.InPlace t r.document) : ∃ r₁, r.Spared t s.node r₁ ∧ ((ignoredEnd? s).on r = (.ok none, r₁) ∨
    ∃ c, (ignoredEnd? s).on r = (.ok (some c), r₁) ∧ s.Encloses t r r₁ c) := by
  obtain ⟨r₁, hspared, hfails | ⟨c, hfinds, hencloses⟩⟩ := h.areaEnd [] "EndIgnore"
  · refine ⟨r₁, hspared, .inl ?_⟩
    rw [ignoredEnd?, on_tryCatch, on_bind_error hfails]
    rfl
  · refine ⟨r₁, hspared, .inr ⟨c, ?_, hencloses⟩⟩
    rw [ignoredEnd?, on_tryCatch, on_bind_ok hfinds]
    rfl

theorem spares_ignored (h : s.InPlace t r.document) (hblock : r.document.blockOf s.node ≠ r.document.root) :
    Spares t s.node r (ignored.execute s) r := by
  refine spares_bind_ok (h.toolkit_on r) ?_
  obtain ⟨r₁, hspared, hnone | ⟨c, hfinds, hencloses⟩⟩ := ignoredEnd?_on h
  · refine spares_bind_ok hnone (spares_bind_ok (on_log _ r₁) ?_)
    exact ((atomic_edit _).bind_total fun _ ↦ total_pure _).spares (hspared.same (quiet_log _ r₁))
  · refine spares_bind_ok hfinds (spares_bind (atomic_removePlaceholder c) hspared fun next r₂ hremove ↦ ?_)
    obtain ⟨e, he, rfl⟩ := removePlaceholder_eq_ok hremove
    obtain ⟨e', he'⟩ := hencloses.deletePlaceholder h hblock he
    have hedit : (edit fun d ↦ d.deletePlaceholder s.node).on { r₁ with document := e } = (.ok (), { r₁ with document := e' }) :=
      on_edit (r := { r₁ with document := e }) he'
    exact spares_of_ok (on_bind_ok hedit)

theorem spares_loop (h : s.InPlace t r.document) : Spares t s.node r (loop.execute s) r := by
  refine spares_ofExcept (.refl h) fun source? _ ↦ ?_
  cases source? with
  | none => exact (atomic_throw _).spares (.refl h)
  | some source =>
    refine spares_ofExcept (.refl h) fun _ _ ↦ spares_bind_ok (on_model r) (spares_ofExcept (.refl h) fun copies _ ↦
      spares_ofExcept (.refl h) fun binding _ ↦ ?_)
    obtain ⟨r₁, hspared, hfails | ⟨c, hfinds, hencloses⟩⟩ := h.areaEnd ["For"] "EndFor"
    · exact spares_bind_error hfails hspared
    · refine spares_bind_ok hfinds (spares_bind_ok (on_log _ r₁) ?_)
      have hencloses := hencloses.same (quiet_log (.expanding copies ((s.str? "index").getD "index")) r₁)
      obtain ⟨area, r₂, hisolate, -, hreplicate⟩ := hencloses.isolate h
      obtain ⟨next?, r₃, hreplicate⟩ := hreplicate (Toolkit.ofDelimiters t)
        ((List.range copies).map (binding.markers ((s.str? "index").getD "index")))
      rw [h.toolkit_eq]
      exact spares_bind_ok hisolate (spares_of_ok (on_bind_ok hreplicate))

/-! ### Fragments -/

theorem quiet_fragmentSource (s : Selection) : (fragmentSource s).Quiet := by
  rw [fragmentSource]
  split
  · rw [resourceText]
    split
    · exact quiet_fetchText _ _
    · exact quiet_fragmentText _ _
  · refine quiet_bind (s.quiet_value? "value") fun v? ↦ ?_
    split
    · exact quiet_pure _
    · exact quiet_throw _
    · exact quiet_throw _

theorem quiet_newDocument (text : String) : (newDocument text).Quiet := fun _ ↦ ⟨rfl, rfl, rfl⟩

/-- A document to which trees have been added: the nodes there were hold what they held, below the
parents that they had. -/
structure Enlarged (d e : Document) : Prop extends Document.Keeps d e where
  forest : e.Forest
  data : ∀ id, d.node? id ≠ none → e.data? id = d.data? id

variable {source : Document} {anchor block : NodeId}

theorem importBefore_on (hsource : source.Forest) (hblock : source.node? block ≠ none) (hd : r.document.Forest)
    (hanchor : r.document.parent? anchor ≠ none) : ∃ copy e, (importBefore source anchor block).on r = (.ok copy, { r with document := e }) ∧
      Enlarged r.document e := by
  obtain ⟨p, hp⟩ := Option.ne_none_iff_exists'.1 hanchor
  obtain ⟨asub, adata, fs, hplace⟩ := hd.exists_place (Document.known_of_parent? hp)
  obtain ⟨f, fs, rfl⟩ := List.exists_cons_of_ne_nil (show fs ≠ [] by rintro rfl; exact hanchor hplace.parent?)
  obtain ⟨bsub, bdata, gs, hblock⟩ := hsource.exists_place hblock
  obtain ⟨e, e', sub', hcopy, hinsert, -, hforest, -, hkeeps, hdata, -⟩ := Document.Stands.copyBefore hd hplace (tops_single ..) hblock
    (Nat.lt_succ_self _)
  have himport : (editFor fun d ↦ d.importSubtree source block).on r = (.ok r.document.fresh, { r with document := e }) :=
    on_editFor hcopy
  have hedit : (edit fun d ↦ d.insertBefore anchor r.document.fresh).on { r with document := e } =
      (.ok (), { r with document := e' }) := on_edit (r := { r with document := e }) hinsert
  refine ⟨r.document.fresh, e', ?_, hkeeps, hforest, hdata⟩
  rw [importBefore, on_bind_ok himport, on_bind_ok hedit]
  rfl

theorem importBefore_refused (hsource : source.Forest) (hblock : source.node? block ≠ none) (h : s.InPlace t r.document)
    (hknown : r.document.node? anchor ≠ none) (hanchor : r.document.parent? anchor = none) :
    ∃ x r₁, (importBefore source anchor block).on r = (.error x, r₁) ∧ r.Spared t s.node r₁ := by
  obtain ⟨bsub, bdata, gs, hblock⟩ := hsource.exists_place hblock
  obtain ⟨sub', e, hcopy, -, he, -, hgrows, -, hstay⟩ := hblock.copyFrom (Nat.lt_succ_self _) h.wellFormed.forest
  have himport : (editFor fun d ↦ d.importSubtree source block).on r = (.ok r.document.fresh, { r with document := e }) :=
    on_editFor hcopy
  obtain ⟨x, hx⟩ : ∃ x, e.insertBefore anchor r.document.fresh = .error x := by
    cases hinsert : e.insertBefore anchor r.document.fresh with
    | error x => exact ⟨x, rfl⟩
    | ok e' =>
      obtain ⟨p, hp, -⟩ := Document.insertBeside_eq_ok hinsert
      rw [Document.parent?_eq_of_node?_eq (hstay anchor hknown), hanchor] at hp
      contradiction
  refine ⟨.document x, { r with document := e }, ?_, .of_stay h ⟨rfl, rfl⟩ he hgrows hstay⟩
  rw [importBefore, on_bind_ok himport, on_bind_error]
  rw [edit, on_bind_ok (on_document _), hx, on_bind_error (on_ofExcept_error _ _ _)]

theorem importAll_on (hsource : source.Forest) (blocks : List (String × NodeId)) (hblocks : ∀ b ∈ blocks, source.node? b.2 ≠ none) :
    ∀ {r : RunState}, r.document.Forest → r.document.parent? anchor ≠ none → ∃ copies e,
      (blocks.mapM fun b ↦ importBefore source anchor b.2).on r = (.ok copies, { r with document := e }) ∧ Enlarged r.document e := by
  induction blocks with
  | nil => exact fun {r} hd _ ↦ ⟨[], r.document, rfl, .refl _, hd, fun _ _ ↦ rfl⟩
  | cons b blocks ih =>
    intro r hd hanchor
    rw [List.forall_mem_cons] at hblocks
    obtain ⟨copy, e, himport, hlarge⟩ := importBefore_on hsource hblocks.1 hd hanchor
    obtain ⟨p, hp⟩ := Option.ne_none_iff_exists'.1 hanchor
    have hparent := hlarge.parents anchor (Document.known_of_parent? hp)
    obtain ⟨copies, e', hrest, hlarge'⟩ := ih hblocks.2 (r := { r with document := e }) hlarge.forest (hparent ▸ hanchor)
    refine ⟨copy :: copies, e', ?_, hlarge.toKeeps.trans hlarge'.toKeeps, hlarge'.forest,
      fun id hid ↦ (hlarge'.data id (hlarge.known id hid)).trans (hlarge.data id hid)⟩
    rw [List.mapM_cons, on_bind_ok himport, on_bind_ok hrest]
    rfl

theorem choose_subset (b : FragmentBounds) (blocks : List (String × NodeId)) : b.choose blocks ⊆ blocks := by
  have hclosing : ∀ blocks, b.untilClosing blocks ⊆ blocks := fun blocks ↦ by
    rw [FragmentBounds.untilClosing]
    split
    · exact List.Subset.refl _
    · exact List.takeWhile_subset _
  rw [FragmentBounds.choose]
  split
  · exact hclosing blocks
  · exact fun x hx ↦ List.dropWhile_subset _ (List.drop_subset _ _ (hclosing _ hx))

/-- Blocks are put before the paragraph of the placeholder, which is then removed. Only the first of
them can be refused, and when none is the placeholder can be removed. -/
theorem spares_merge (h : s.InPlace t r.document) (hsource : source.Forest) {blocks : List (String × NodeId)}
    (hblocks : ∀ b ∈ blocks, source.node? b.2 ≠ none) {f : List NodeId → Continuation → Run Outcome} (hf : ∀ cs next, (f cs next).Total) :
    Spares t s.node r (do
      let copies ← blocks.mapM fun b ↦ importBefore source (r.document.blockOf s.node) b.2
      Run.log (.imported copies.length)
      let next ← Selection.removePlaceholder s.node
      f copies next) r := by
  have hd := h.wellFormed.forest
  have hknown : ∀ id ∈ s.node :: r.document.ancestors s.node, r.document.node? id ≠ none :=
    hd.known_ancestors fun hnone ↦ by simpa [Document.isText, Document.text?, Document.data?, hnone] using h.text
  cases hparent : r.document.parent? (r.document.blockOf s.node) with
  | none =>
    cases blocks with
    | nil =>
      refine spares_bind_ok (on_pure [] r) (spares_bind_ok (on_log _ r) ?_)
      exact ((atomic_removePlaceholder s.node).bind_total (hf [])).spares ((Spared.refl h).same (quiet_log _ r))
    | cons b blocks =>
      obtain ⟨x, r₁, hrefused, hspared⟩ := importBefore_refused hsource (hblocks b (List.mem_cons_self ..)) h
        (hknown _ (r.document.blockOf_mem s.node)) hparent
      rw [List.mapM_cons]
      exact spares_bind_error (on_bind_error hrefused) hspared
  | some p =>
    obtain ⟨copies, e, hall, hlarge⟩ := importAll_on hsource blocks hblocks hd (by rw [hparent]; simp)
    refine spares_bind_ok hall (spares_bind_ok (on_log _ _) ?_)
    have hblock : r.document.blockOf s.node ≠ r.document.root := fun heq ↦ by
      rw [heq, hd.wellFormed.topmost] at hparent
      contradiction
    obtain ⟨e', he'⟩ := hd.exists_deletePlaceholder_later h.attached hblock hlarge.forest hlarge.toGrows.root
      (fun id hid ↦ hlarge.data id (hknown id hid)) (hlarge.parents _ (hknown _ (List.mem_cons_self ..))) fun id hid ↦ .inl (hlarge.parents id hid)
    obtain ⟨next, hremove⟩ := removePlaceholder_on (r := { r with document := e, log := _ }) he'
    exact spares_bind_ok hremove (hf copies next).spares

theorem spares_fragment (h : s.InPlace t r.document) : Spares t s.node r (fragment.execute s) r := by
  refine spares_ofExcept (.refl h) fun opening? _ ↦ spares_ofExcept (.refl h) fun closing? _ ↦
    (quiet_fragmentSource s).spares_bind h fun text r₁ _ _ h ↦ spares_bind_ok (h.toolkit_on r₁) ?_
  refine (quiet_newDocument text).spares_bind h fun source r₂ hnew _ h ↦ spares_bind_ok (on_document r₂) ?_
  have hsource : source.Forest := by
    obtain rfl := Except.ok.inj (Prod.mk.inj hnew).1
    exact Document.forest_ofText _ text
  refine spares_merge h hsource (fun b hb ↦ ?_) fun copies next ↦ ?_
  · obtain ⟨id, hid, rfl⟩ := List.mem_map.1 (choose_subset _ _ hb)
    exact hsource.wellFormed.known_child hid
  · cases copies <;> exact total_pure _

/-! ### Copies of named elements -/

theorem findNamed_eq_ok {name : String} (h : (findNamed name).on r = (.ok id, r₁)) : r.document.named? name = some id ∧ r₁ = r := by
  rw [findNamed, on_bind_ok (on_document r)] at h
  cases hnamed : r.document.named? name with
  | none => simp [hnamed] at h
  | some found =>
    simp only [hnamed, on_pure, Prod.mk.injEq, Except.ok.injEq] at h
    exact ⟨by rw [h.1], h.2.symm⟩

theorem quiet_findNamed (name : String) : (findNamed name).Quiet := by
  refine quiet_bind quiet_document fun d ↦ ?_
  cases d.named? name with
  | none => exact quiet_throw _
  | some id => exact quiet_pure id

theorem requireStr_eq_ok {c : Command} {key name : String} (h : c.requireStr key = .ok name) : c.str? key = some name := by
  rw [Command.requireStr] at h
  cases hkey : c.str? key with
  | none => simp [hkey] at h
  | some found =>
    rw [hkey] at h
    exact congrArg some (Except.ok.inj h)

/-- The name of an element that has a parent, and keeps it when the placeholder goes. -/
def Anchored (s : Selection) (d : Document) (name : String) : Prop :=
  ∀ id, d.named? name = some id → id ≠ d.root ∧ id ≠ d.removalRoot s.node

theorem Anchored.parent?_eq {d e : Document} {name : String} (h : Anchored s d name) (hd : d.Forest) (hid : d.named? name = some id)
    (he : d.deletePlaceholder s.node = .ok e) : ∃ p, e.parent? id = some p := by
  obtain ⟨hroot, hapart⟩ := h id hid
  have hattached : d.isAttached id = true := hd.isAttached_iff_mem.2 (List.mem_of_find?_eq_some hid)
  obtain ⟨-, -, -, hparent⟩ := Document.detach_eq_ok he
  rw [hparent, if_neg hapart]
  exact Option.ne_none_iff_exists'.1 (Document.parent?_of_isAttached hattached hroot)

theorem findAnchor?_eq_ok {name? : Option String} {anchor? : Option NodeId} (h : (findAnchor? name?).on r = (.ok anchor?, r₁)) :
    r₁ = r ∧ ∀ a, anchor? = some a → ∃ name, name? = some name ∧ r.document.named? name = some a := by
  cases name? with
  | none =>
    obtain ⟨hnone, rfl⟩ := Prod.mk.inj h
    obtain rfl := Except.ok.inj hnone
    simp
  | some name =>
    obtain ⟨id, r₂, hfound, hresult⟩ := on_bind_eq_ok h
    obtain ⟨hnamed, rfl⟩ := findNamed_eq_ok hfound
    obtain ⟨hsome, rfl⟩ := Prod.mk.inj hresult
    obtain rfl := Except.ok.inj hsome
    exact ⟨rfl, fun a ha ↦ ⟨name, rfl, Option.some.inj ha ▸ hnamed⟩⟩

theorem quiet_findAnchor? (name? : Option String) : (findAnchor? name?).Quiet := by
  cases name? with
  | none => exact quiet_pure none
  | some name => exact quiet_bind (quiet_findNamed name) fun _ ↦ quiet_pure _

/-- An element is copied, renamed and put in its place. -/
theorem spares_clone {element copied : NodeId} {name : String} {e : Document} {place : NodeId → Document → Except DocumentError Document}
    (hclone : r₁.document.deepClone element = .ok (copied, e)) (hplace : ∃ e', place copied (e.setAttr copied nameAttr name) = .ok e')
    {f : Run Outcome} (hf : f.Total) : Spares t id r (do
      let clone ← Run.editFor fun d ↦ d.deepClone element
      Run.change fun d ↦ d.setAttr clone nameAttr name
      Run.edit fun d ↦ place clone d
      f) r₁ := by
  obtain ⟨e', hplace⟩ := hplace
  have hedit : (edit fun d ↦ place copied d).on { r₁ with document := e.setAttr copied nameAttr name } =
      (.ok (), { r₁ with document := e' }) := on_edit (r := { r₁ with document := e.setAttr copied nameAttr name }) hplace
  exact spares_bind_ok (on_editFor hclone) (spares_bind_ok rfl (spares_bind_ok hedit hf.spares))

theorem spares_copy (h : s.InPlace t r.document)
    (hfirm : ∀ key ∈ ["name", "insertBefore"], ∀ name, s.str? key = some name → Anchored s r.document name) :
    Spares t s.node r (copy.execute s) r := by
  have hd := h.wellFormed.forest
  refine spares_ofExcept (.refl h) fun name hname ↦ spares_ofExcept (.refl h) fun newName _ ↦
    spares_bind (quiet_findNamed name).atomic (.refl h) fun element r₁ hfound ↦ ?_
  obtain ⟨hnamed, rfl⟩ := findNamed_eq_ok hfound
  refine spares_bind (quiet_findAnchor? _).atomic (.refl h) fun anchor? r₂ hanchor ↦ ?_
  obtain ⟨rfl, hanchor⟩ := findAnchor?_eq_ok hanchor
  refine spares_bind s.atomic_deletePlaceholder (.refl h) fun result r₃ hdelete ↦ ?_
  rw [Selection.deletePlaceholder, h.toolkit] at hdelete
  obtain ⟨next, r₄, hremove, hresult⟩ := on_bind_eq_ok hdelete
  obtain ⟨e, he, rfl⟩ := removePlaceholder_eq_ok hremove
  obtain ⟨-, rfl⟩ := Prod.mk.inj hresult
  -- what is copied has a parent, and so has what the copy goes in front of
  have hname := requireStr_eq_ok hname
  obtain ⟨p, hp⟩ := (hfirm "name" (by simp) name hname).parent?_eq hd hnamed he
  have hforest := hd.detach he
  refine spares_bind_ok (on_document _) ?_
  dsimp only
  rw [hp]
  cases anchor? with
  | none =>
    obtain ⟨e₁, hclone, -, happend⟩ := hforest.insertable_copy (Document.known_of_parent? hp) hp nameAttr newName
    exact spares_clone hclone happend (total_bind (total_log _) fun _ ↦ total_pure _)
  | some anchor =>
    obtain ⟨before, hbefore, hanchored⟩ := hanchor anchor rfl
    obtain ⟨q, hq⟩ := (hfirm "insertBefore" (by simp) before hbefore).parent?_eq hd hanchored he
    obtain ⟨e₁, hclone, hinsert, -⟩ := hforest.insertable_copy (Document.known_of_parent? hp) hq nameAttr newName
    exact spares_clone hclone hinsert (total_bind (total_log _) fun _ ↦ total_pure _)

/-! ### All commands -/

/-- What the removal of the placeholder must not take away: the end of a block needs the paragraph of
its placeholder below the root, and a copy the parents of the elements that it names. -/
structure Firm (h : Handler) (s : Selection) (d : Document) : Prop where
  block : h ∈ [conditional, ignored] → d.blockOf s.node ≠ d.root
  named : h = copy → ∀ key ∈ ["name", "insertBefore"], ∀ name, s.str? key = some name → Anchored s d name

theorem atomic_or_edits {h : Handler} (hin : h ∈ builtins) : h.Atomic ∨ h ∈ [conditional, loop, fragment, ignored, copy] := by
  simp only [builtins, List.mem_cons, List.not_mem_nil, or_false] at hin
  rcases hin with rfl | rfl | rfl | rfl | rfl | rfl | rfl | rfl | rfl | rfl | rfl | rfl | rfl | rfl | rfl | rfl | rfl | rfl | rfl
  exacts [.inl atomic_insertion, .inr (by simp), .inr (by simp), .inl atomic_closing, .inl atomic_push, .inl atomic_pop,
    .inl atomic_cursor, .inr (by simp), .inl atomic_picture, .inl atomic_joined, .inl (atomic_moment _ _), .inl (atomic_moment _ _),
    .inl atomic_number, .inl atomic_counter, .inl atomic_concatenation, .inl atomic_calculation, .inr (by simp),
    .inl atomic_definition, .inr (by simp)]

/-- A command that fails at a placeholder of a tree leaves the variables, the cursor and the aliases as
they were, and the tree but for cuts of texts around the markers in them, with the placeholder in its
place; given, for a block, that its paragraph is not the root, and, for a copy, that the elements it
names have parents and keep them. -/
theorem spared_of_error {h : Handler} {e : RunError} {r' : RunState} (hin : h ∈ builtins) (hplace : s.InPlace t r.document)
    (hfirm : h.Firm s r.document) (hfail : (h.execute s).on r = (.error e, r')) : r.Spared t s.node r' := by
  rcases atomic_or_edits hin with hatomic | hedits
  · exact (hatomic s).spares (.refl hplace) e r' hfail
  · simp only [List.mem_cons, List.not_mem_nil, or_false] at hedits
    rcases hedits with rfl | rfl | rfl | rfl | rfl
    · exact spares_conditional hplace (hfirm.block (by simp)) e r' hfail
    · exact spares_loop hplace e r' hfail
    · exact spares_fragment hplace e r' hfail
    · exact spares_ignored hplace (hfirm.block (by simp)) e r' hfail
    · exact spares_copy hplace (hfirm.named rfl) e r' hfail

def openCondition : Selection where
  node := ⟨0, 2⟩
  command := ⟨"If", [("a", .int 1)], none⟩
  toolkit? := some (Toolkit.ofDelimiters Delimiters.default)
  provider := .empty
  now := ⟨⟨0, 1⟩, .midnight⟩

def openRun : RunState where
  document := Document.ofText 0 "$\x7bIf a:1\x7d\nx $\x7bb\x7d y"
  model := .ofData .null
  aliases := []
  services := .ofTtl 0
  report := .empty
  searches := 0
  nextSerial := 1
  log := []

theorem spared_of_error_open : ∃ e r', (conditional.execute openCondition).on openRun = (.error e, r') ∧
    openRun.Spared Delimiters.default openCondition.node r' ∧ openRun.document.size = 5 ∧ r'.document.size = 7 := by
  have hplace : openCondition.InPlace Delimiters.default openRun.document :=
    ⟨rfl, (Document.forest_ofText _ _).wellFormed, by decide +kernel, by decide +kernel⟩
  have hfirm : conditional.Firm openCondition openRun.document := by
    refine ⟨fun _ ↦ by decide +kernel, fun hcopy ↦ ?_⟩
    have hnames : ["If"] = ["Clone"] := congrArg Handler.names hcopy
    exact absurd hnames (by decide)
  have hsplit : ∀ {x : Except RunError Outcome × RunState} {a : Except RunError Outcome}, x.1 = a → x = (a, x.2) := by
    rintro ⟨_, _⟩ _ rfl
    rfl
  have hfail := hsplit (x := (conditional.execute openCondition).on openRun)
    (a := .error (.structure (.noClosing "If" "EndIf"))) (by decide +kernel)
  exact ⟨_, _, hfail, spared_of_error (by simp [builtins]) hplace hfirm hfail, by decide +kernel, by decide +kernel⟩

end Handler

end Blocks

end Stencil
