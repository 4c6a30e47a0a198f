import Stencil.Command.Missing
import Stencil.Proofs.Run.Step
import Stencil.Run.Area
/-!
Steps that leave the report alone. Only the scan itself counts placeholders and notes what went wrong;
commands look, edit, bind and fetch.
-/

namespace Stencil

namespace Run

variable {α β γ : Type} {x : Run α} {k : α → Run β}

/-- A step that leaves the report alone, whether it fails or not. -/
def Tacit (x : Run α) : Prop := ∀ r : RunState, (x.on r).2.report = r.report

theorem tacit_pure (a : α) : Tacit (pure a : Run α) := fun _ ↦ rfl

theorem tacit_throw (e : RunError) : Tacit (throw e : Run α) := fun _ ↦ rfl

theorem tacit_ofExcept {ε : Type} (wrap : ε → RunError) (y : Except ε α) : Tacit (ofExcept wrap y) := by
  cases y with
  | ok a => exact tacit_pure a
  | error e => exact tacit_throw (wrap e)

theorem tacit_bind (hx : Tacit x) (hk : ∀ a, Tacit (k a)) : Tacit (x >>= k) := by
  intro r
  have hfirst := hx r
  rcases hon : x.on r with ⟨e | a, r₁⟩
  · rw [hon] at hfirst
    rw [on_bind_error hon]
    exact hfirst
  · rw [hon] at hfirst
    rw [on_bind_ok hon, hk a r₁]
    exact hfirst

theorem tacit_tryCatch {f : RunError → Run α} (hx : Tacit x) (hf : ∀ e, Tacit (f e)) : Tacit (tryCatch x f) := by
  intro r
  have hfirst := hx r
  rw [on_tryCatch]
  rcases hon : x.on r with ⟨e | a, r₁⟩
  · rw [hon] at hfirst
    exact (hf e r₁).trans hfirst
  · rw [hon] at hfirst
    exact hfirst

theorem tacit_get : Tacit get := fun _ ↦ rfl

theorem tacit_document : Tacit document := fun _ ↦ rfl

theorem tacit_model : Tacit model := fun _ ↦ rfl

theorem tacit_log (e : Event) : Tacit (log e) := fun _ ↦ rfl

theorem tacit_modify {f : RunState → RunState} (hf : ∀ r, (f r).report = r.report) : Tacit (modify f) := hf

theorem tacit_setDocument (d : Document) : Tacit (setDocument d) := fun _ ↦ rfl

theorem tacit_setModel (m : Model) : Tacit (setModel m) := fun _ ↦ rfl

theorem tacit_edit (f : Document → Except DocumentError Document) : Tacit (edit f) :=
  tacit_bind tacit_document fun _ ↦ tacit_bind (tacit_ofExcept _ _) fun _ ↦ tacit_setDocument _

theorem tacit_editFor (f : Document → Except DocumentError (α × Document)) : Tacit (editFor f) :=
  tacit_bind tacit_document fun _ ↦ tacit_bind (tacit_ofExcept _ _) fun _ ↦
    tacit_bind (tacit_setDocument _) fun _ ↦ tacit_pure _

theorem tacit_change (f : Document → Document) : Tacit (change f) :=
  tacit_bind tacit_document fun _ ↦ tacit_setDocument _

theorem tacit_detach (id : NodeId) : Tacit (detach id) := tacit_edit _

theorem tacit_push (name : String) (value : Datum) : Tacit (push name value) :=
  tacit_bind tacit_model fun _ ↦ tacit_bind (tacit_ofExcept _ _) fun _ ↦ tacit_setModel _

theorem tacit_enter (p : Path) : Tacit (enter p) :=
  tacit_bind tacit_model fun _ ↦ tacit_bind (tacit_ofExcept _ _) fun _ ↦
    tacit_bind (tacit_log _) fun _ ↦ tacit_setModel _

/-! ### Lists of steps -/

theorem tacit_mapM {f : γ → Run α} (hf : ∀ c, Tacit (f c)) (cs : List γ) : Tacit (cs.mapM f) := by
  induction cs with
  | nil => exact tacit_pure []
  | cons c cs ih =>
    rw [List.mapM_cons]
    exact tacit_bind (hf c) fun _ ↦ tacit_bind ih fun _ ↦ tacit_pure _

theorem tacit_forM {f : γ → Run PUnit} (hf : ∀ c, Tacit (f c)) (cs : List γ) : Tacit (cs.forM f) := by
  induction cs with
  | nil => exact tacit_pure ()
  | cons c cs ih => exact tacit_bind (hf c) fun _ ↦ ih

theorem tacit_filterMapM {f : γ → Run (Option α)} (hf : ∀ c, Tacit (f c)) (cs : List γ) : Tacit (cs.filterMapM f) := by
  induction cs with
  | nil => exact tacit_pure []
  | cons c cs ih =>
    rw [List.filterMapM_cons]
    refine tacit_bind (hf c) fun a? ↦ ?_
    cases a? with
    | none => exact ih
    | some a => exact tacit_bind ih fun as ↦ tacit_pure (a :: as)

/-! ### Searches and resources -/

theorem tacit_search (t : Toolkit) (id : NodeId) : Tacit (search t id) := by
  intro r
  rw [search, on_bind_ok (on_get r), on_bind_ok (on_set r _)]
  dsimp only
  split
  · exact tacit_bind (tacit_log _) (fun _ ↦ tacit_ofExcept _ _) _
  · exact tacit_ofExcept _ _ _

theorem tacit_takeFlush : Tacit takeFlush := by
  intro r
  obtain ⟨document, model, aliases, ⟨sizes, fragments, fetched, flushes⟩, report, searches, nextSerial, log⟩ := r
  cases flushes <;> rfl

theorem tacit_letFlush (flush : Services → Services) : Tacit (letFlush flush) := by
  refine tacit_bind tacit_takeFlush fun b ↦ ?_
  cases b with
  | false => exact tacit_pure ()
  | true => exact tacit_modify fun _ ↦ rfl

theorem tacit_fetch (p : Provider) (handle : String) : Tacit (fetch p handle) := by
  refine tacit_bind (tacit_modify fun _ ↦ rfl) fun _ ↦ tacit_bind (tacit_ofExcept _ _) fun bytes ↦ ?_
  cases p.logsReads with
  | false => exact tacit_pure bytes
  | true => exact tacit_bind (tacit_ofExcept _ _) fun id ↦ tacit_bind (tacit_log _) fun _ ↦ tacit_pure bytes

theorem tacit_identify (p : Provider) (handle : String) : Tacit (identify p handle) := tacit_ofExcept _ _

theorem tacit_fetchText (p : Provider) (handle : String) : Tacit (fetchText p handle) :=
  tacit_bind (tacit_fetch p handle) fun _ ↦ tacit_ofExcept _ _

theorem tacit_imageSize (p : Provider) (handle : String) : Tacit (imageSize p handle) := by
  refine tacit_bind (tacit_identify p handle) fun id ↦ tacit_bind (tacit_letFlush _) fun _ ↦
    tacit_bind tacit_get fun r ↦ ?_
  cases r.services.sizes.get? id with
  | some size => exact tacit_pure size
  | none =>
    refine tacit_bind (tacit_fetch p handle) fun bytes ↦ ?_
    cases pixelSize? bytes with
    | none => exact tacit_throw _
    | some size => exact tacit_bind (tacit_modify fun _ ↦ rfl) fun _ ↦ tacit_pure size

theorem tacit_fragmentText (p : Provider) (handle : String) : Tacit (fragmentText p handle) := by
  refine tacit_bind (tacit_identify p handle) fun id ↦ tacit_bind (tacit_letFlush _) fun _ ↦
    tacit_bind tacit_get fun r ↦ ?_
  cases r.services.fragments.get? id with
  | some text => exact tacit_pure text
  | none =>
    exact tacit_bind (tacit_fetchText p handle) fun text ↦ tacit_bind (tacit_modify fun _ ↦ rfl) fun _ ↦ tacit_pure text

theorem tacit_newDocument (text : String) : Tacit (newDocument text) := fun _ ↦ rfl

end Run

namespace Selection

open Run

variable (s : Selection)

theorem tacit_toolkit : s.toolkit.Tacit := by
  rw [toolkit]
  cases s.toolkit? with
  | none => exact tacit_throw _
  | some t => exact tacit_pure t

theorem tacit_requireStr (key : String) : (s.requireStr key).Tacit := tacit_ofExcept _ _

theorem tacit_source? (key : String) : (s.source? key).Tacit := tacit_ofExcept _ _

theorem tacit_value? (key : String) : (s.value? key).Tacit :=
  tacit_bind (s.tacit_source? key) fun _ ↦ tacit_bind tacit_model fun _ ↦ tacit_pure _

theorem tacit_nameOf? (t : Toolkit) (id : NodeId) : (nameOf? t id).Tacit := tacit_bind tacit_get fun _ ↦ tacit_pure _

theorem tacit_seekEnd (t : Toolkit) (openers : List String) (closer : String) : ∀ (n : ℕ) (nesting : Nesting) (id? : Option NodeId),
    (seekEnd t openers closer n nesting id?).Tacit := by
  intro n
  induction n with
  | zero => exact fun _ _ ↦ tacit_pure none
  | succ n ih =>
    intro nesting id?
    cases id? with
    | none => exact tacit_pure none
    | some id =>
      refine tacit_bind (tacit_search t id) fun found? ↦ ?_
      cases found? with
      | none => exact tacit_pure none
      | some found =>
        refine tacit_bind (tacit_nameOf? t found) fun name? ↦ ?_
        split
        · exact tacit_pure _
        · exact tacit_bind tacit_document fun _ ↦ ih _ _

theorem tacit_areaEnd (openers : List String) (closer : String) : (s.areaEnd openers closer).Tacit := by
  refine tacit_bind s.tacit_toolkit fun t ↦ tacit_bind tacit_document fun d ↦
    tacit_bind (tacit_seekEnd t openers closer _ _ _) fun id? ↦ ?_
  cases id? with
  | none => exact tacit_throw _
  | some id => exact tacit_pure id

theorem tacit_replaceWithText (text : String) : (s.replaceWithText text).Tacit := by
  rw [replaceWithText]
  split
  · exact tacit_pure none
  · refine tacit_bind tacit_document fun d ↦ ?_
    split
    · exact tacit_bind (tacit_edit _) fun _ ↦ tacit_pure _
    · exact tacit_pure none

theorem tacit_removePlaceholder (id : NodeId) : (removePlaceholder id).Tacit :=
  tacit_bind tacit_document fun _ ↦ tacit_bind (tacit_edit _) fun _ ↦ tacit_pure _

theorem tacit_deletePlaceholder : s.deletePlaceholder.Tacit := by
  rw [deletePlaceholder]
  cases s.toolkit? with
  | none =>
    exact tacit_bind tacit_document fun _ ↦ tacit_bind (tacit_log _) fun _ ↦
      tacit_bind (tacit_detach _) fun _ ↦ tacit_pure _
  | some t => exact tacit_bind (tacit_removePlaceholder s.node) fun _ ↦ tacit_pure _

theorem tacit_insertImage (handle name : String) (policy : SizePolicy) : (s.insertImage handle name policy).Tacit := by
  rw [insertImage]
  split
  · exact tacit_pure none
  · exact tacit_bind (tacit_identify _ _) fun _ ↦ tacit_bind (tacit_imageSize _ _) fun _ ↦
      tacit_bind (tacit_editFor _) fun _ ↦ tacit_bind tacit_document fun _ ↦ tacit_pure _

theorem tacit_write (text : String) : (s.write text).Tacit :=
  tacit_bind (s.tacit_replaceWithText text) fun _ ↦ tacit_pure _

theorem tacit_remove : s.remove.Tacit := tacit_bind s.tacit_deletePlaceholder fun _ ↦ tacit_pure _

theorem tacit_writeMissing : s.writeMissing.Tacit := by
  refine tacit_bind (tacit_ofExcept _ _) fun policy ↦ ?_
  cases policy with
  | empty => exact s.tacit_write _
  | fallback => exact s.tacit_write _
  | keep => exact tacit_pure _
  | delete => exact s.tacit_remove
  | fail => exact tacit_throw _

end Selection

namespace Area

open Run

theorem tacit_isolate (opening closing : NodeId) : (isolate opening closing).Tacit := by
  refine tacit_bind tacit_document fun _ ↦ tacit_bind (tacit_ofExcept _ _) fun area ↦
    tacit_bind (tacit_editFor _) fun before ↦ tacit_bind (tacit_editFor _) fun after ↦ ?_
  split
  · exact tacit_pure area
  · exact tacit_bind (tacit_log _) fun _ ↦ tacit_bind tacit_document fun _ ↦ tacit_ofExcept _ _

variable (a : Area) (t : Toolkit)

theorem tacit_delete (range? : Option IndexRange) (behind : Bool) : (a.delete range? behind).Tacit := by
  rw [delete]
  dsimp only
  split
  · exact tacit_throw _
  · exact tacit_bind tacit_document fun _ ↦ tacit_bind (tacit_log _) fun _ ↦
      tacit_bind (tacit_forM tacit_detach _) fun _ ↦ tacit_pure _

theorem tacit_relabel (which : AreaEnd) (clone : NodeId) (path : List ℕ) (cs : Commands) :
    (relabel t which clone path cs).Tacit := by
  refine tacit_bind tacit_document fun d ↦ ?_
  cases followDown? d clone path with
  | none => exact tacit_throw _
  | some marker => exact tacit_edit _

theorem tacit_copyNodes (paths : MarkerPaths) (markers : CopyMarkers) : ∀ (nodes : List NodeId) (isFirst : Bool),
    (copyNodes t a paths markers isFirst nodes).Tacit := by
  intro nodes
  induction nodes with
  | nil => exact fun _ ↦ tacit_pure []
  | cons node rest ih =>
    intro isFirst
    refine tacit_bind (tacit_editFor _) fun clone ↦ tacit_bind (tacit_edit _) fun _ ↦ ?_
    have hclones : (do return clone :: (← copyNodes t a paths markers false rest)).Tacit :=
      tacit_bind (ih false) fun _ ↦ tacit_pure _
    have hlast : (do
        if rest.isEmpty then relabel t .last clone paths.closing markers.closing
        return clone :: (← copyNodes t a paths markers false rest)).Tacit := by
      cases rest.isEmpty with
      | false => exact hclones
      | true => exact tacit_bind (tacit_relabel t _ _ _ _) fun _ ↦ hclones
    cases isFirst with
    | false => exact hlast
    | true => exact tacit_bind (tacit_relabel t _ _ _ _) fun _ ↦ hlast

theorem tacit_copyAll (paths : MarkerPaths) (nodes : List NodeId) (markers : List CopyMarkers) :
    (copyAll t a paths nodes markers).Tacit := by
  induction markers with
  | nil => exact tacit_pure []
  | cons m markers ih =>
    exact tacit_bind (a.tacit_copyNodes t paths m nodes true) fun _ ↦ tacit_bind ih fun _ ↦ tacit_pure _

theorem tacit_replicate {toolkit : Run Toolkit} (htoolkit : toolkit.Tacit) (markers : List CopyMarkers) :
    (a.replicate toolkit markers).Tacit := by
  rw [replicate]
  split
  · exact a.tacit_delete none true
  · refine tacit_bind htoolkit fun t ↦ tacit_bind tacit_document fun d ↦ ?_
    dsimp only
    split
    · exact tacit_throw _
    · exact tacit_throw _
    · exact tacit_bind (a.tacit_copyAll t _ _ markers) fun _ ↦ tacit_bind (tacit_forM tacit_detach _) fun _ ↦
        tacit_bind (tacit_log _) fun _ ↦ tacit_bind tacit_document fun _ ↦ tacit_pure _

end Area

end Stencil
