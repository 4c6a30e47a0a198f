import Stencil.Command.Builtin
import Stencil.Proofs.Run.Tacit
/-!
No command touches the report of the run that it is carried out in.
-/

namespace Stencil

namespace Handler

open Run Selection

def Tacit (h : Handler) : Prop := ∀ s, (h.execute s).Tacit

variable (s : Selection)

/-! ### Commands that write -/

theorem tacit_insertion : insertion.Tacit := by
  intro s
  refine tacit_bind (s.tacit_value? "value") fun v? ↦ ?_
  split
  · exact s.tacit_writeMissing
  · exact s.tacit_writeMissing
  · exact s.tacit_write _
  · exact tacit_throw _

theorem tacit_writeJoined (items : List String) : (writeJoined s items).Tacit :=
  tacit_bind (tacit_ofExcept _ _) fun _ ↦ s.tacit_write _

theorem tacit_joined : joined.Tacit := by
  intro s
  refine tacit_bind (s.tacit_value? "value") fun v? ↦ ?_
  split
  · exact s.tacit_writeMissing
  · exact s.tacit_writeMissing
  · exact tacit_writeJoined s _
  · exact tacit_bind (tacit_ofExcept _ _) fun _ ↦ tacit_writeJoined s _
  · exact tacit_throw _

theorem tacit_writeMoment (m : Calendar.Moment) (format : String) : (writeMoment s m format).Tacit := by
  rw [writeMoment]
  cases m.format? format with
  | none => exact tacit_throw _
  | some text => exact s.tacit_write text

theorem tacit_moment (name : String) (formats : MomentFormats) : (moment name formats).Tacit := by
  intro s
  refine tacit_bind (s.tacit_source? "value") fun source? ↦ ?_
  cases source? with
  | none => exact tacit_writeMoment s _ _
  | some source =>
    refine tacit_bind tacit_model fun m ↦ ?_
    split
    · exact tacit_bind (tacit_ofExcept _ _) fun _ ↦ tacit_writeMoment s _ _
    · exact s.tacit_writeMissing
    · split
      · exact s.tacit_writeMissing
      · exact tacit_throw _

theorem tacit_number : number.Tacit := by
  intro s
  refine tacit_bind (s.tacit_value? "value") fun v? ↦ ?_
  split
  · split
    · exact tacit_bind (tacit_ofExcept _ _) fun _ ↦ s.tacit_write _
    · exact s.tacit_writeMissing
  · exact s.tacit_writeMissing

theorem tacit_loopIndex? : (loopIndex? s).Tacit := by
  refine tacit_bind tacit_model fun m ↦ tacit_bind (s.tacit_source? "index") fun source? ↦ ?_
  cases source? <;> exact tacit_pure _

theorem tacit_counter : counter.Tacit := by
  intro s
  refine tacit_bind (tacit_loopIndex? s) fun v? ↦ ?_
  split
  · exact s.tacit_write _
  · exact s.tacit_remove

theorem tacit_picture : picture.Tacit := fun s ↦
  tacit_bind (s.tacit_requireStr "resource") fun handle ↦ tacit_bind (tacit_ofExcept _ _) fun _ ↦
    tacit_bind (tacit_ofExcept _ _) fun _ ↦ tacit_bind (s.tacit_insertImage handle _ _) fun _ ↦ tacit_pure _

/-! ### Commands that bind -/

theorem tacit_push : push.Tacit := fun s ↦
  tacit_bind (s.tacit_requireStr "key") fun key ↦ tacit_bind (s.tacit_value? "value") fun _ ↦
    tacit_bind (tacit_log _) fun _ ↦ tacit_bind (Run.tacit_push key _) fun _ ↦ tacit_pure _

theorem tacit_pop : pop.Tacit := by
  intro s
  refine tacit_bind (s.tacit_requireStr "key") fun key ↦ tacit_bind (tacit_log _) fun _ ↦ tacit_bind tacit_model fun m ↦ ?_
  cases m.scope.pop? key with
  | none => exact tacit_throw _
  | some bound => exact tacit_bind (tacit_setModel _) fun _ ↦ tacit_pure _

theorem tacit_cursor : cursor.Tacit := fun s ↦
  tacit_bind (s.tacit_requireStr "value") fun _ ↦ tacit_bind (tacit_ofExcept _ _) fun p ↦
    tacit_bind (tacit_enter p) fun _ ↦ tacit_pure _

theorem tacit_definition : definition.Tacit := fun _ ↦
  tacit_bind (tacit_ofExcept _ _) fun _ ↦ tacit_bind (tacit_log _) fun _ ↦
    tacit_bind (tacit_modify fun _ ↦ rfl) fun _ ↦ tacit_pure _

theorem tacit_operand (key : String) : (operand s key).Tacit := by
  refine tacit_bind (s.tacit_value? key) fun v? ↦ ?_
  split
  · exact tacit_pure _
  · exact tacit_pure _
  · split <;> exact tacit_throw _
  · exact tacit_throw _

theorem tacit_calculation : calculation.Tacit := fun s ↦
  tacit_bind (s.tacit_requireStr "key") fun key ↦ tacit_bind (tacit_ofExcept _ _) fun _ ↦
    tacit_bind (tacit_operand s "a") fun _ ↦ tacit_bind (tacit_operand s "b") fun _ ↦
      tacit_bind (tacit_ofExcept _ _) fun _ ↦ tacit_bind (tacit_log _) fun _ ↦
        tacit_bind (Run.tacit_push key _) fun _ ↦ tacit_pure _

theorem tacit_concatenation : concatenation.Tacit := fun s ↦
  tacit_bind (s.tacit_requireStr "key") fun key ↦ tacit_bind (tacit_filterMapM s.tacit_value? slots) fun _ ↦
    tacit_bind (tacit_ofExcept _ _) fun _ ↦ tacit_bind (tacit_log _) fun _ ↦
      tacit_bind (Run.tacit_push key _) fun _ ↦ tacit_pure _

/-! ### Commands on parts of the document -/

theorem tacit_conditional : conditional.Tacit := by
  intro s
  refine tacit_bind (tacit_ofExcept _ _) fun condition ↦ tacit_bind (s.tacit_areaEnd _ _) fun closing ↦
    tacit_bind tacit_model fun m ↦ tacit_bind (tacit_log _) fun _ ↦ ?_
  split
  · exact tacit_bind s.tacit_toolkit fun _ ↦ tacit_bind (tacit_edit _) fun _ ↦
      tacit_bind (tacit_removePlaceholder _) fun _ ↦ tacit_pure _
  · exact tacit_bind (Area.tacit_isolate _ _) fun area ↦ tacit_bind (area.tacit_delete none true) fun _ ↦ tacit_pure _

theorem tacit_loop : loop.Tacit := by
  intro s
  refine tacit_bind (s.tacit_source? "value") fun source? ↦ ?_
  cases source? with
  | none => exact tacit_throw _
  | some source =>
    exact tacit_bind (tacit_ofExcept _ _) fun _ ↦ tacit_bind tacit_model fun _ ↦ tacit_bind (tacit_ofExcept _ _) fun _ ↦
      tacit_bind (tacit_ofExcept _ _) fun _ ↦ tacit_bind (s.tacit_areaEnd _ _) fun _ ↦ tacit_bind (tacit_log _) fun _ ↦
        tacit_bind (Area.tacit_isolate _ _) fun area ↦
          tacit_bind (area.tacit_replicate s.tacit_toolkit _) fun _ ↦ tacit_pure _

theorem tacit_closing : closing.Tacit := fun _ ↦ tacit_throw _

theorem tacit_ignoredEnd? : (ignoredEnd? s).Tacit := by
  refine tacit_tryCatch (tacit_bind (s.tacit_areaEnd [] "EndIgnore") fun _ ↦ tacit_pure _) fun e ↦ ?_
  split
  · exact tacit_pure none
  · exact tacit_throw e

theorem tacit_ignored : ignored.Tacit := by
  intro s
  refine tacit_bind s.tacit_toolkit fun _ ↦ tacit_bind (tacit_ignoredEnd? s) fun closing? ↦ ?_
  cases closing? with
  | none => exact tacit_bind (tacit_log _) fun _ ↦ tacit_bind (tacit_edit _) fun _ ↦ tacit_pure _
  | some closing =>
    exact tacit_bind (tacit_removePlaceholder _) fun _ ↦ tacit_bind (tacit_edit _) fun _ ↦ tacit_pure _

theorem tacit_findNamed (name : String) : (findNamed name).Tacit := by
  refine tacit_bind tacit_document fun d ↦ ?_
  cases d.named? name with
  | none => exact tacit_throw _
  | some id => exact tacit_pure id

theorem tacit_findAnchor? : ∀ name? : Option String, (findAnchor? name?).Tacit
  | none => tacit_pure none
  | some name => tacit_bind (tacit_findNamed name) fun _ ↦ tacit_pure _

theorem tacit_copy : copy.Tacit := by
  intro s
  refine tacit_bind (s.tacit_requireStr "name") fun name ↦ tacit_bind (s.tacit_requireStr "newName") fun newName ↦
    tacit_bind (tacit_findNamed name) fun element ↦ tacit_bind (tacit_findAnchor? _) fun anchor? ↦
      tacit_bind s.tacit_deletePlaceholder fun result ↦ tacit_bind tacit_document fun d ↦ ?_
  cases d.parent? element with
  | none => exact tacit_throw _
  | some parent =>
    exact tacit_bind (tacit_editFor _) fun clone ↦ tacit_bind (tacit_change _) fun _ ↦ tacit_bind (tacit_edit _) fun _ ↦
      tacit_bind (tacit_log _) fun _ ↦ tacit_pure _

theorem tacit_resourceText (handle : String) : (resourceText s handle).Tacit := by
  rw [resourceText]
  split
  · exact tacit_fetchText _ _
  · exact tacit_fragmentText _ _

theorem tacit_fragmentSource : (fragmentSource s).Tacit := by
  rw [fragmentSource]
  cases s.str? "resource" with
  | some handle => exact tacit_resourceText s handle
  | none =>
    refine tacit_bind (s.tacit_value? "value") fun v? ↦ ?_
    split
    · exact tacit_pure _
    · exact tacit_throw _
    · exact tacit_throw _

theorem tacit_importBefore (source : Document) (anchor block : NodeId) : (importBefore source anchor block).Tacit :=
  tacit_bind (tacit_editFor _) fun _ ↦ tacit_bind (tacit_edit _) fun _ ↦ tacit_pure _

theorem tacit_fragment : fragment.Tacit := by
  intro s
  refine tacit_bind (tacit_ofExcept _ _) fun opening? ↦ tacit_bind (tacit_ofExcept _ _) fun closing? ↦
    tacit_bind (tacit_fragmentSource s) fun text ↦ tacit_bind s.tacit_toolkit fun _ ↦ ?_
  refine tacit_bind (tacit_newDocument text) fun source ↦ tacit_bind tacit_document fun d ↦ ?_
  have himport : ∀ b : String × NodeId, (importBefore source (d.blockOf s.node) b.2).Tacit :=
    fun b ↦ tacit_importBefore source _ b.2
  refine tacit_bind (tacit_mapM himport _) fun copies ↦ tacit_bind (tacit_log _) fun _ ↦
    tacit_bind (tacit_removePlaceholder s.node) fun next ↦ ?_
  cases copies <;> exact tacit_pure _

/-! ### All commands -/

theorem tacit_of_mem {h : Handler} (hin : h ∈ builtins) : h.Tacit := by
  simp only [builtins, List.mem_cons, List.not_mem_nil, or_false] at hin
  rcases hin with rfl | rfl | rfl | rfl | rfl | rfl | rfl | rfl | rfl | rfl | rfl | rfl | rfl | rfl | rfl | rfl | rfl | rfl | rfl
  exacts [tacit_insertion, tacit_conditional, tacit_loop, tacit_closing, tacit_push, tacit_pop, tacit_cursor, tacit_fragment,
    tacit_picture, tacit_joined, tacit_moment _ _, tacit_moment _ _, tacit_number, tacit_counter, tacit_concatenation,
    tacit_calculation, tacit_ignored, tacit_definition, tacit_copy]

end Handler

end Stencil
