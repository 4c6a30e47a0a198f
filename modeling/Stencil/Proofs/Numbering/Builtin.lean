import Stencil.Proofs.Command.Merge
import Stencil.Proofs.Numbering.Command
/-!
The commands that every renderer knows, in two runs side by side.
-/

namespace Stencil

variable {k : ℕ} {p : Provider}

/-! ### Attempts of commands -/

theorem NumberOp.unnumbered_adjust (op : NumberOp) (value : Scalar) (operand? : Option Scalar) :
    Unnumbered (op.adjust value operand?) := fun _ ↦ by
  rw [adjust.eq_def]
  split
  · rfl
  · split
    · dsimp only
      split <;> rfl
    · split <;> rfl

namespace Command

variable (c : Command)

theorem unnumbered_number? (key : String) : Unnumbered (c.number? key) := fun _ ↦ by
  rw [number?]
  split <;> rfl

theorem unnumbered_numberText (value : Scalar) : Unnumbered (c.numberText value) := by
  refine Unnumbered.bind (((c.unnumbered_number? _).bind fun _ ↦ (NumberOp.unnumbered_adjust _ _ _).bind fun _ ↦
    (c.unnumbered_number? _).bind fun _ ↦ NumberOp.unnumbered_adjust _ _ _)) fun v k ↦ ?_
  split <;> rfl

theorem unnumbered_pixels? (key : String) : Unnumbered (c.pixels? key) := fun _ ↦ by
  rw [pixels?]
  split
  · rfl
  · split
    · split <;> rfl
    · rfl

theorem unnumbered_definedAlias : Unnumbered c.definedAlias := by
  have hobject : ∀ key, Unnumbered (c.object? key) := fun key _ ↦ by
    rw [object?]
    split <;> rfl
  have hrenames : ∀ es, Unnumbered (renames es) := fun es ↦ by
    induction es with
    | nil => exact .ok []
    | cons e es ih =>
      obtain ⟨old, v⟩ := e
      cases v <;> first | exact ih.map _ | exact fun _ ↦ rfl
  refine (c.unnumbered_requireStr _).bind fun key ↦ (c.unnumbered_requireStr _).bind fun target ↦ ?_
  split
  · exact fun _ ↦ rfl
  · exact (hobject _).bind fun defaults ↦ (hobject _).bind fun replacements ↦ (hrenames _).bind fun _ ↦ .ok _

end Command

theorem Operator.unnumbered_apply (o : Operator) (a b : Scalar) : Unnumbered (o.apply a b) := fun _ ↦ by
  rw [apply.eq_def]
  split
  · split <;> rfl
  · rfl

theorem Joint.unnumbered_ofCommand (c : Command) : Unnumbered (ofCommand c) := fun _ ↦ by
  rw [ofCommand]
  split
  · rfl
  · split <;> rfl

theorem unnumbered_textsOf (values : List Datum) : Unnumbered (textsOf values) := by
  induction values with
  | nil => exact .ok []
  | cons v values ih => cases v <;> first | exact ih.map _ | exact fun _ ↦ rfl

namespace Handler

open Run Selection

theorem unnumbered_operatorOf (c : Command) : Unnumbered (operatorOf c) := fun _ ↦ by
  rw [operatorOf]
  split
  · rfl
  · split <;> rfl

theorem unnumbered_combine (kind : String) (values : List Datum) : Unnumbered (combine kind values) := by
  have htexts : Unnumbered (concatenate values) := by
    induction values with
    | nil => exact .ok ""
    | cons v values ih => cases v <;> first | exact ih.map _ | exact fun _ ↦ rfl
  rw [combine]
  split
  · exact .ok _
  split
  · exact htexts.map _
  · exact fun _ ↦ rfl

theorem unnumbered_momentOf (text format : String) : Unnumbered (momentOf text format) := fun _ ↦ by
  rw [momentOf]
  split <;> rfl

theorem unnumbered_countElements (v? : Option Datum) : Unnumbered (countElements v?) := fun _ ↦ by
  rw [countElements.eq_def]
  split
  · rfl
  · rfl
  · split <;> rfl

theorem unnumbered_bindingOf (cursor : Path) (name? : Option String) (source : Source) :
    Unnumbered (bindingOf cursor name? source) := fun _ ↦ by
  rw [bindingOf.eq_def]
  dsimp only
  split
  · split <;> rfl
  · split <;> rfl

theorem unnumbered_pattern? (c : Command) (key : String) : Unnumbered (pattern? c key) := fun _ ↦ by
  rw [pattern?]
  split
  · rfl
  · split <;> rfl

/-! ### Commands that write -/

def Shifts (p : Provider) (k : ℕ) (h : Handler) : Prop :=
  ∀ s : Selection, s.Textual p → (h.execute s).Shifts p k (.shift k) (h.execute (s.shift k))

variable {s : Selection}

theorem shifts_insertion : insertion.Shifts p k := by
  intro s hs
  refine shifts_bind (s.shifts_value? "value") fun v? ↦ ?_
  dsimp only [id]
  split
  · exact shifts_writeMissing hs
  · exact shifts_writeMissing hs
  · exact shifts_write hs _
  · exact shifts_throw _

theorem shifts_writeJoined (hs : s.Textual p) (items : List String) :
    (writeJoined s items).Shifts p k (.shift k) (writeJoined (s.shift k) items) :=
  shifts_bind (shifts_unnumbered (Joint.unnumbered_ofCommand s.command)) fun _ ↦ shifts_write hs _

theorem shifts_joined : joined.Shifts p k := by
  intro s hs
  refine shifts_bind (s.shifts_value? "value") fun v? ↦ ?_
  dsimp only [id]
  split
  · exact shifts_writeMissing hs
  · exact shifts_writeMissing hs
  · exact shifts_writeJoined hs _
  · exact shifts_bind (shifts_unnumbered (unnumbered_textsOf _)) fun _ ↦ shifts_writeJoined hs _
  · exact shifts_throw _

theorem shifts_writeMoment (hs : s.Textual p) (m : Calendar.Moment) (format : String) :
    (writeMoment s m format).Shifts p k (.shift k) (writeMoment (s.shift k) m format) := by
  rw [writeMoment, writeMoment]
  cases m.format? format with
  | none => exact shifts_throw _
  | some text => exact shifts_write hs text

theorem shifts_moment (name : String) (formats : MomentFormats) : (moment name formats).Shifts p k := by
  intro s hs
  refine shifts_bind (s.shifts_source? "value") fun source? ↦ ?_
  cases source? with
  | none => exact shifts_writeMoment hs _ _
  | some source =>
    refine shifts_bind shifts_model fun m ↦ ?_
    dsimp only [id]
    split
    · exact shifts_bind (shifts_unnumbered (unnumbered_momentOf _ _)) fun _ ↦ shifts_writeMoment hs _ _
    · exact shifts_writeMissing hs
    · split
      · exact shifts_writeMissing hs
      · exact shifts_throw _

theorem shifts_number : number.Shifts p k := by
  intro s hs
  refine shifts_bind (s.shifts_value? "value") fun v? ↦ ?_
  dsimp only [id]
  split
  · split
    · exact shifts_bind (shifts_unnumbered (s.command.unnumbered_numberText _)) fun _ ↦ shifts_write hs _
    · exact shifts_writeMissing hs
  · exact shifts_writeMissing hs

theorem shifts_loopIndex? (s : Selection) : (loopIndex? s).Shifts p k id (loopIndex? s) := by
  refine shifts_bind shifts_model fun m ↦ shifts_bind (s.shifts_source? "index") fun source? ↦ ?_
  cases source? <;> exact shifts_pure _

theorem shifts_counter : counter.Shifts p k := by
  intro s hs
  refine shifts_bind (shifts_loopIndex? s) fun v? ↦ ?_
  dsimp only [id]
  split
  · exact shifts_write hs _
  · exact shifts_remove hs

theorem shifts_picture : picture.Shifts p k := fun s hs ↦
  shifts_bind (s.shifts_requireStr "resource") fun handle ↦ shifts_bind (shifts_unnumbered (s.command.unnumbered_pixels? _)) fun _ ↦
    shifts_bind (shifts_unnumbered (s.command.unnumbered_pixels? _)) fun _ ↦ shifts_bind (shifts_insertImage hs handle _ _) fun next? ↦
      Outcome.ofEdit_shift next? ▸ shifts_pure (Outcome.ofEdit next?)

/-! ### Commands that bind -/

theorem shifts_push : push.Shifts p k := fun s _ ↦
  shifts_bind (s.shifts_requireStr "key") fun key ↦ shifts_bind (s.shifts_value? "value") fun _ ↦
    shifts_bind (shifts_log _ _) fun _ ↦ shifts_bind (Run.shifts_push key _) fun _ ↦ shifts_pure _

theorem shifts_pop : pop.Shifts p k := by
  intro s _
  refine shifts_bind (s.shifts_requireStr "key") fun key ↦ shifts_bind (shifts_log _ _) fun _ ↦ shifts_bind shifts_model fun m ↦ ?_
  dsimp only [id]
  cases m.scope.pop? key with
  | none => exact shifts_throw _
  | some bound => exact shifts_bind (shifts_setModel _) fun _ ↦ shifts_pure _

theorem shifts_cursor : cursor.Shifts p k := fun s _ ↦
  shifts_bind (s.shifts_requireStr "value") fun _ ↦ shifts_bind (shifts_same (fun _ _ ↦ rfl) _) fun path ↦
    shifts_bind (shifts_enter path) fun _ ↦ shifts_pure _

theorem shifts_definition : definition.Shifts p k := fun s _ ↦
  shifts_bind (shifts_unnumbered s.command.unnumbered_definedAlias) fun a ↦ shifts_bind (shifts_log _ _) fun _ ↦
    shifts_bind (shifts_modify fun _ _ h ↦
      ⟨h.document, h.model, congrArg (·.define a) h.aliases, h.report, h.nextSerial, h.left, h.right⟩) fun _ ↦ shifts_pure _

theorem shifts_operand (s : Selection) (key : String) : (operand s key).Shifts p k id (operand s key) := by
  refine shifts_bind (s.shifts_value? key) fun v? ↦ ?_
  dsimp only [id]
  split
  · exact shifts_pure _
  · exact shifts_pure _
  · split <;> exact shifts_throw _
  · exact shifts_throw _

theorem shifts_calculation : calculation.Shifts p k := fun s _ ↦
  shifts_bind (s.shifts_requireStr "key") fun key ↦ shifts_bind (shifts_unnumbered (unnumbered_operatorOf s.command)) fun operator ↦
    shifts_bind (shifts_operand s "a") fun a ↦ shifts_bind (shifts_operand s "b") fun b ↦
      shifts_bind (shifts_unnumbered (operator.unnumbered_apply a b)) fun _ ↦ shifts_bind (shifts_log _ _) fun _ ↦
        shifts_bind (Run.shifts_push key _) fun _ ↦ shifts_pure _

theorem shifts_concatenation : concatenation.Shifts p k := fun s _ ↦
  shifts_bind (s.shifts_requireStr "key") fun key ↦ shifts_bind (shifts_filterMapM s.shifts_value? slots) fun values ↦
    shifts_bind (shifts_unnumbered (unnumbered_combine _ values)) fun _ ↦ shifts_bind (shifts_log _ _) fun _ ↦
      shifts_bind (Run.shifts_push key _) fun _ ↦ shifts_pure _

/-! ### Commands on parts of the document -/

theorem shifts_conditional : conditional.Shifts p k := by
  intro s hs
  refine shifts_bind (shifts_same (fun _ _ ↦ rfl) _) fun condition ↦ shifts_bind (shifts_areaEnd hs _ _) fun closing ↦
    shifts_bind shifts_model fun m ↦ shifts_bind (shifts_log _ _) fun _ ↦ ?_
  dsimp only [id]
  obtain ⟨t, ht, ht'⟩ := shifts_toolkit (k := k) hs
  split
  · rw [ht, ht', pure_bind, pure_bind]
    exact shifts_bind (shifts_edit fun d ↦ d.deletePlaceholder_shift closing) fun _ ↦
      shifts_bind (shifts_removePlaceholder s.node) fun next ↦ shifts_pure (Outcome.executed next)
  · exact shifts_bind (Area.shifts_isolate _ _) fun area ↦ shifts_bind (area.shifts_delete none true) fun next? ↦
      Outcome.ofEdit_shift next? ▸ shifts_pure (Outcome.ofEdit next?)

theorem shifts_loop : loop.Shifts p k := by
  intro s hs
  refine shifts_bind (s.shifts_source? "value") fun source? ↦ ?_
  cases source? with
  | none => exact shifts_throw _
  | some source =>
    refine shifts_bind (shifts_same (fun _ _ ↦ rfl) _) fun _ ↦ shifts_bind shifts_model fun m ↦
      shifts_bind (shifts_unnumbered (unnumbered_countElements _)) fun copies ↦
      shifts_bind (shifts_unnumbered (unnumbered_bindingOf _ _ _)) fun binding ↦ shifts_bind (shifts_areaEnd hs _ _) fun closing ↦
      shifts_bind (shifts_log _ _) fun _ ↦ shifts_bind (Area.shifts_isolate _ _) fun area ↦ ?_
    obtain ⟨t, ht, ht'⟩ := shifts_toolkit (k := k) hs
    rw [ht, ht']
    exact shifts_bind (area.shifts_replicate t _) fun next? ↦ Outcome.ofEdit_shift next? ▸ shifts_pure (Outcome.ofEdit next?)

theorem shifts_closing : closing.Shifts p k := fun _ _ ↦ shifts_throw _

theorem shifts_ignoredEnd? (hs : s.Textual p) :
    (ignoredEnd? s).Shifts p k (Option.map (.shift k)) (ignoredEnd? (s.shift k)) := by
  refine shifts_tryCatch (shifts_bind (shifts_areaEnd hs [] "EndIgnore") fun node ↦ shifts_pure (some node)) fun e ↦ ?_
  cases e <;> first | exact shifts_pure none | exact shifts_throw _

theorem shifts_ignored : ignored.Shifts p k := by
  intro s hs
  obtain ⟨t, ht, ht'⟩ := shifts_toolkit (k := k) hs
  simp only [ignored, ht, ht', pure_bind]
  refine shifts_bind (shifts_ignoredEnd? hs) fun closing? ↦ ?_
  cases closing? with
  | none =>
    exact shifts_bind (shifts_log _ _) fun _ ↦ shifts_bind (shifts_edit fun d ↦ d.deletePlaceholder_shift s.node) fun _ ↦
      shifts_pure (Outcome.executed .stop)
  | some closing =>
    exact shifts_bind (shifts_removePlaceholder closing) fun next ↦
      shifts_bind (shifts_edit fun d ↦ d.deletePlaceholder_shift s.node) fun _ ↦ shifts_pure (Outcome.executed next)

theorem shifts_findNamed (name : String) : (findNamed name).Shifts p k (.shift k) (findNamed name) := by
  refine shifts_bind shifts_document fun d ↦ ?_
  rw [Document.named?_shift]
  cases d.named? name with
  | none => exact shifts_throw _
  | some node => exact shifts_pure node

theorem shifts_findAnchor? : ∀ name? : Option String, (findAnchor? name?).Shifts p k (Option.map (.shift k)) (findAnchor? name?)
  | none => shifts_pure none
  | some name => shifts_bind (shifts_findNamed name) fun node ↦ shifts_pure (some node)

theorem shifts_copy : copy.Shifts p k := by
  intro s hs
  refine shifts_bind (s.shifts_requireStr "name") fun name ↦ shifts_bind (s.shifts_requireStr "newName") fun newName ↦
    shifts_bind (shifts_findNamed name) fun element ↦ shifts_bind (shifts_findAnchor? _) fun anchor? ↦
      shifts_bind (shifts_deletePlaceholder hs) fun result ↦ shifts_bind shifts_document fun d ↦ ?_
  rw [Document.parent?_shift]
  cases d.parent? element with
  | none => exact shifts_throw _
  | some parent =>
    refine shifts_bind (shifts_editFor fun e ↦ e.deepClone_shift element) fun clone ↦
      shifts_bind (shifts_change fun e ↦ e.setAttr_shift clone nameAttr newName) fun _ ↦ shifts_bind (shifts_edit fun e ↦ ?_) fun _ ↦
      shifts_bind (shifts_log _ _) fun _ ↦ Outcome.ofEdit_shift result ▸ shifts_pure (Outcome.ofEdit result)
    cases anchor? with
    | none => exact e.appendChild_shift parent clone
    | some anchor => exact e.insertBefore_shift anchor clone

theorem shifts_fragmentSource (hs : s.Textual p) : (fragmentSource s).Shifts p k id (fragmentSource (s.shift k)) := by
  have hresource : ∀ handle, (resourceText s handle).Shifts p k id (resourceText (s.shift k) handle) := fun handle ↦ by
    simp only [resourceText, Selection.shift, hs.provider]
    split
    · exact shifts_fetchText handle
    · exact shifts_fragmentText handle
  have hstr : (s.shift k).str? "resource" = s.str? "resource" := rfl
  rw [fragmentSource, fragmentSource, hstr]
  cases s.str? "resource" with
  | some handle => exact hresource handle
  | none =>
    refine shifts_bind (s.shifts_value? "value") fun v? ↦ ?_
    dsimp only [id]
    split
    · exact shifts_pure _
    · exact shifts_throw _
    · exact shifts_throw _

theorem shifts_importBefore (source : Document) (anchor block : NodeId) : (importBefore source anchor block).Shifts p k (.shift k)
    (importBefore (source.shift k) (anchor.shift k) (block.shift k)) :=
  shifts_bind (shifts_editFor fun d ↦ d.importSubtree_shift source block) fun made ↦
    shifts_bind (shifts_edit fun d ↦ d.insertBefore_shift anchor made) fun _ ↦ shifts_pure made

theorem shifts_fragment : fragment.Shifts p k := by
  intro s hs
  obtain ⟨t, ht, ht'⟩ := shifts_toolkit (k := k) hs
  simp only [fragment, ht, ht', pure_bind]
  refine shifts_bind (shifts_unnumbered (unnumbered_pattern? _ _)) fun opening? ↦
    shifts_bind (shifts_unnumbered (unnumbered_pattern? _ _)) fun closing? ↦ shifts_bind (shifts_fragmentSource hs) fun text ↦
      shifts_bind (shifts_newDocument text) fun source ↦ shifts_bind shifts_document fun d ↦ ?_
  have hblocks : ((source.shift k).children (source.shift k).root).map (fun id ↦ ((source.shift k).textContent id, id)) =
      ((source.children source.root).map fun id ↦ (source.textContent id, id)).map (Prod.map id (.shift k)) := by
    simp [Function.comp_def]
  have hcopies : ∀ blocks : List (String × NodeId), Run.Shifts p k (List.map (.shift k))
      (blocks.mapM fun b ↦ importBefore source (d.blockOf s.node) b.2) ((blocks.map (Prod.map id (.shift k))).mapM fun b ↦
        importBefore (source.shift k) ((d.shift k).blockOf (s.node.shift k)) b.2) := fun blocks ↦ by
    rw [Document.blockOf_shift]
    exact shifts_mapM (e := Prod.map id (NodeId.shift k)) (fun b ↦ shifts_importBefore source _ b.2) blocks
  dsimp only [id]
  rw [hblocks, FragmentBounds.choose_map]
  refine shifts_bind (hcopies _) fun copies ↦ shifts_bind (shifts_log _ _) fun _ ↦
    shifts_bind (shifts_removePlaceholder s.node) fun next ↦ ?_
  cases copies with
  | nil => exact shifts_pure (Outcome.executed next)
  | cons first _ => exact shifts_pure (Outcome.executed (.at first))

/-! ### All commands -/

theorem shifts_of_mem {h : Handler} (hin : h ∈ builtins) : h.Shifts p k := by
  simp only [builtins, List.mem_cons, List.not_mem_nil, or_false] at hin
  rcases hin with rfl | rfl | rfl | rfl | rfl | rfl | rfl | rfl | rfl | rfl | rfl | rfl | rfl | rfl | rfl | rfl | rfl | rfl | rfl
  exacts [shifts_insertion, shifts_conditional, shifts_loop, shifts_closing, shifts_push, shifts_pop, shifts_cursor, shifts_fragment,
    shifts_picture, shifts_joined, shifts_moment _ _, shifts_moment _ _, shifts_number, shifts_counter, shifts_concatenation,
    shifts_calculation, shifts_ignored, shifts_definition, shifts_copy]

end Handler

end Stencil
