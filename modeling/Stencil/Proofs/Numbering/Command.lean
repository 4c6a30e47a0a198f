import Stencil.Command.Builtin
import Stencil.Proofs.Numbering.Step
/-!
Commands of two runs side by side. No command looks at the number of a document, or at what is kept of
resources.
-/

namespace Stencil

variable {k : ℕ} {p : Provider}

def Outcome.shift (k : ℕ) : Outcome → Outcome
  | ignored => ignored
  | executed next => executed (next.shift k)
  | consumed => consumed

theorem Outcome.ofEdit_shift (next? : Option Continuation) : ofEdit (next?.map (.shift k)) = (ofEdit next?).shift k := by
  cases next? <;> rfl

def Selection.shift (k : ℕ) (s : Selection) : Selection := { s with node := s.node.shift k }

/-- A command at work in a text, with the resources of a provider. -/
structure Selection.Textual (p : Provider) (s : Selection) : Prop where
  provider : s.provider = p
  toolkit : ∃ t, s.toolkit? = some (.ofDelimiters t)

/-! ### Parameters -/

theorem Command.unnumbered_requireStr (c : Command) (key : String) : Unnumbered (c.requireStr key) := fun _ ↦ by
  rw [requireStr]
  cases c.str? key <;> rfl

theorem Command.unnumbered_source? (c : Command) (key : String) : Unnumbered (c.source? key) := by
  have htext : ∀ (key : String) (v : Json), Unnumbered (pathText key v) := fun key v _ ↦ by
    rw [pathText]
    cases v.str? <;> rfl
  have hlift : ∀ {α : Type} (x : Except PathError α), Unnumbered (liftPath x) := fun x _ ↦ by cases x <;> rfl
  rw [source?]
  split
  · exact .ok _
  · exact (htext _ _).bind fun text ↦ (hlift _).bind fun _ ↦ .ok _
  · exact (htext _ _).bind fun text ↦ (hlift _).bind fun _ ↦ .ok _
  · exact .ok none

theorem MissingPolicy.unnumbered_ofCommand (c : Command) : Unnumbered (ofCommand c) := fun _ ↦ by
  rw [ofCommand]
  split
  · rfl
  · split <;> rfl

namespace Selection

open Run

variable (s : Selection)

theorem shifts_requireStr (key : String) : (s.requireStr key).Shifts p k id (s.requireStr key) :=
  shifts_unnumbered (s.command.unnumbered_requireStr key)

theorem shifts_source? (key : String) : (s.source? key).Shifts p k id (s.source? key) :=
  shifts_unnumbered (s.command.unnumbered_source? key)

theorem shifts_value? (key : String) : (s.value? key).Shifts p k id (s.value? key) :=
  shifts_bind (s.shifts_source? key) fun _ ↦ shifts_bind shifts_model fun _ ↦ shifts_pure _

/-! ### Edits -/

theorem shifts_removePlaceholder (node : NodeId) :
    (removePlaceholder node).Shifts p k (.shift k) (removePlaceholder (node.shift k)) := by
  refine shifts_bind shifts_document fun d ↦ ?_
  rw [Document.removalRoot_shift, Continuation.ofNode_some_shift]
  exact shifts_bind (shifts_edit fun e ↦ e.deletePlaceholder_shift node) fun _ ↦ shifts_pure _

variable {s} (hs : s.Textual p)

include hs

theorem shifts_toolkit : ∃ t, s.toolkit = pure (.ofDelimiters t) ∧ (s.shift k).toolkit = pure (.ofDelimiters t) := by
  obtain ⟨t, ht⟩ := hs.toolkit
  refine ⟨t, ?_, ?_⟩ <;> simp only [toolkit, shift, ht]

theorem shifts_deletePlaceholder : s.deletePlaceholder.Shifts p k (Option.map (.shift k)) (s.shift k).deletePlaceholder := by
  obtain ⟨t, ht⟩ := hs.toolkit
  simp only [deletePlaceholder, shift, ht]
  exact shifts_bind (shifts_removePlaceholder s.node) fun next ↦ shifts_pure (some next)

theorem shifts_replaceWithText (text : String) :
    (s.replaceWithText text).Shifts p k (Option.map (.shift k)) ((s.shift k).replaceWithText text) := by
  obtain ⟨t, ht⟩ := hs.toolkit
  simp only [replaceWithText, shift, ht, Option.isNone_some, Bool.false_eq_true, if_false]
  refine shifts_bind shifts_document fun d ↦ ?_
  rw [Document.isText_shift]
  split
  · exact shifts_bind (shifts_edit fun e ↦ e.setText_shift s.node text) fun _ ↦ shifts_pure (some Continuation.proceed)
  · exact shifts_pure none

theorem shifts_insertImage (handle name : String) (policy : SizePolicy) :
    (s.insertImage handle name policy).Shifts p k (Option.map (.shift k)) ((s.shift k).insertImage handle name policy) := by
  obtain ⟨t, ht⟩ := hs.toolkit
  simp only [insertImage, shift, ht, Option.isNone_some, Bool.false_eq_true, if_false, hs.provider]
  refine shifts_bind (shifts_identify handle) fun source ↦ shifts_bind (shifts_imageSize handle) fun natural ↦
    shifts_bind (shifts_editFor fun d ↦ d.insertImage_shift s.node _) fun element ↦ shifts_bind shifts_document fun d ↦ ?_
  rw [Continuation.ofNode_some_shift]
  exact shifts_pure (some _)

theorem shifts_write (text : String) : (s.write text).Shifts p k (.shift k) ((s.shift k).write text) :=
  shifts_bind (shifts_replaceWithText hs text) fun next? ↦ Outcome.ofEdit_shift next? ▸ shifts_pure _

theorem shifts_remove : s.remove.Shifts p k (.shift k) (s.shift k).remove :=
  shifts_bind (shifts_deletePlaceholder hs) fun next? ↦ Outcome.ofEdit_shift next? ▸ shifts_pure _

theorem shifts_writeMissing : s.writeMissing.Shifts p k (.shift k) (s.shift k).writeMissing := by
  refine shifts_bind (shifts_unnumbered (MissingPolicy.unnumbered_ofCommand s.command)) fun policy ↦ ?_
  cases policy with
  | empty => exact shifts_write hs _
  | fallback => exact shifts_write hs _
  | keep => exact shifts_pure _
  | delete => exact shifts_remove hs
  | fail => exact shifts_throw _

omit hs

/-! ### Closing placeholders -/

theorem shifts_nameOf? (t : Delimiters) (node : NodeId) :
    (nameOf? (.ofDelimiters t) node).Shifts p k id (nameOf? (.ofDelimiters t) (node.shift k)) := by
  refine shifts_get fun r r' hr ↦ ?_
  rw [hr.document, hr.aliases, Document.payload?_shift]
  exact shifts_pure _

theorem shifts_seekEnd (t : Delimiters) (openers : List String) (closer : String) (n : ℕ) (nesting : Nesting) (id? : Option NodeId) :
    (seekEnd (.ofDelimiters t) openers closer n nesting id?).Shifts p k (Option.map (.shift k))
      (seekEnd (.ofDelimiters t) openers closer n nesting (id?.map (.shift k))) := by
  induction n generalizing nesting id? with
  | zero => exact shifts_pure none
  | succ n ih =>
    cases id? with
    | none => exact shifts_pure none
    | some node =>
      refine shifts_bind (shifts_search t node) fun found? ↦ ?_
      cases found? with
      | none => exact shifts_pure none
      | some found =>
        refine shifts_bind (shifts_nameOf? t found) fun name? ↦ ?_
        rw [id]
        split
        · exact shifts_pure (some found)
        · refine shifts_bind shifts_document fun d ↦ ?_
          rw [Document.nextAfter?_shift]
          exact ih _ _

include hs

theorem shifts_areaEnd (openers : List String) (closer : String) :
    (s.areaEnd openers closer).Shifts p k (.shift k) ((s.shift k).areaEnd openers closer) := by
  obtain ⟨t, ht, ht'⟩ := shifts_toolkit (k := k) hs
  rw [areaEnd, areaEnd, ht, ht', pure_bind, pure_bind]
  refine shifts_bind shifts_document fun d ↦ ?_
  have hseek := shifts_seekEnd (p := p) (k := k) t openers closer (placeholderBound d) ⟨0, false⟩ (d.nextAfter? s.node)
  rw [← Document.nextAfter?_shift] at hseek
  rw [placeholderBound_shift]
  refine shifts_bind hseek fun node? ↦ ?_
  cases node? with
  | none => exact shifts_throw _
  | some node => exact shifts_pure node

end Selection

/-! ### Areas -/

namespace Area

open Run

theorem shifts_resolve (d : Document) (opening closing : NodeId) : Shifts p k (.shift k) (ofExcept .area (resolve d opening closing))
    (ofExcept .area (resolve (d.shift k) (opening.shift k) (closing.shift k))) :=
  shifts_wrapped (fun _ _ ↦ rfl) (resolve_shift d opening closing)

theorem shifts_isolate (opening closing : NodeId) :
    (isolate opening closing).Shifts p k (.shift k) (isolate (opening.shift k) (closing.shift k)) := by
  refine shifts_bind shifts_document fun d ↦ shifts_bind (shifts_resolve d opening closing) fun area ↦
    shifts_bind (shifts_editFor fun e ↦ e.splitOff_shift area.ancestor opening .before) fun before ↦
    shifts_bind (shifts_editFor fun e ↦ e.splitOff_shift area.ancestor closing .after) fun after ↦ ?_
  rw [Option.isNone_map, Option.isNone_map]
  split
  · exact shifts_pure area
  · exact shifts_bind (shifts_log _ _) fun _ ↦ shifts_bind shifts_document fun e ↦ shifts_resolve e opening closing

variable (a : Area) (t : Delimiters)

theorem shifts_delete (range? : Option IndexRange) (behind : Bool) :
    (a.delete range? behind).Shifts p k (Option.map (.shift k)) ((a.shift k).delete range? behind) := by
  have hrange : (a.shift k).range = a.range := rfl
  rw [delete, delete, hrange]
  dsimp only
  split
  · exact shifts_throw _
  · refine shifts_bind shifts_document fun d ↦ shifts_bind (shifts_log _ _) fun _ ↦ ?_
    rw [nodesIn_shift]
    refine shifts_bind (shifts_forM shifts_detach _) fun _ ↦ ?_
    have hnext := Continuation.ofNode_some_shift (k := k) d a.last behind
    exact hnext ▸ shifts_pure (some (Continuation.ofNode d (some a.last) behind))

theorem shifts_relabel (which : AreaEnd) (clone : NodeId) (path : List ℕ) (cs : Commands) :
    (relabel (.ofDelimiters t) which clone path cs).Shifts p k id (relabel (.ofDelimiters t) which (clone.shift k) path cs) := by
  refine shifts_bind shifts_document fun d ↦ ?_
  rw [followDown?_shift]
  cases followDown? d clone path with
  | none => exact shifts_throw _
  | some marker => exact shifts_edit fun e ↦ e.setPlaceholder_shift t marker cs

theorem shifts_copyNodes (paths : MarkerPaths) (markers : CopyMarkers) (nodes : List NodeId) (isFirst : Bool) :
    (copyNodes (.ofDelimiters t) a paths markers isFirst nodes).Shifts p k (List.map (.shift k))
      (copyNodes (.ofDelimiters t) (a.shift k) paths markers isFirst (nodes.map (.shift k))) := by
  induction nodes generalizing isFirst with
  | nil => exact shifts_pure []
  | cons node rest ih =>
    refine shifts_bind (shifts_editFor fun d ↦ d.deepClone_shift node) fun clone ↦
      shifts_bind (shifts_edit fun d ↦ d.insertBefore_shift a.first clone) fun _ ↦ ?_
    have hclones : Shifts p k (List.map (.shift k)) (do return clone :: (← copyNodes (.ofDelimiters t) a paths markers false rest))
        (do return clone.shift k :: (← copyNodes (.ofDelimiters t) (a.shift k) paths markers false (rest.map (.shift k)))) :=
      shifts_bind (ih false) fun clones ↦ shifts_pure (clone :: clones)
    have hlast : Shifts p k (List.map (.shift k)) (do
        if rest.isEmpty then relabel (.ofDelimiters t) .last clone paths.closing markers.closing
        return clone :: (← copyNodes (.ofDelimiters t) a paths markers false rest)) (do
        if (rest.map (NodeId.shift k)).isEmpty then relabel (.ofDelimiters t) .last (clone.shift k) paths.closing markers.closing
        return clone.shift k :: (← copyNodes (.ofDelimiters t) (a.shift k) paths markers false (rest.map (.shift k)))) := by
      rw [List.isEmpty_map]
      cases rest.isEmpty with
      | false => exact hclones
      | true => exact shifts_bind (shifts_relabel t _ _ _ _) fun _ ↦ hclones
    cases isFirst with
    | false => exact hlast
    | true => exact shifts_bind (shifts_relabel t _ _ _ _) fun _ ↦ hlast

theorem shifts_copyAll (paths : MarkerPaths) (nodes : List NodeId) (markers : List CopyMarkers) :
    (copyAll (.ofDelimiters t) a paths nodes markers).Shifts p k (List.map (.shift k))
      (copyAll (.ofDelimiters t) (a.shift k) paths (nodes.map (.shift k)) markers) := by
  induction markers with
  | nil => exact shifts_pure []
  | cons m markers ih =>
    refine shifts_bind (a.shifts_copyNodes t paths m nodes true) fun clones ↦ shifts_bind ih fun more ↦ ?_
    rw [← List.map_append]
    exact shifts_pure (clones ++ more)

theorem shifts_replicate (markers : List CopyMarkers) :
    (a.replicate (pure (.ofDelimiters t)) markers).Shifts p k (Option.map (.shift k))
      ((a.shift k).replicate (pure (.ofDelimiters t)) markers) := by
  rw [replicate, replicate]
  split
  · exact a.shifts_delete none true
  · rw [pure_bind, pure_bind]
    refine shifts_bind shifts_document fun d ↦ ?_
    have hpath : ∀ top node, pathBelow? (d.shift k) (top.shift k) ((d.shift k).size + 1) (node.shift k) [] =
        pathBelow? d top (d.size + 1) node [] := fun top node ↦ by rw [Document.size_shift, pathBelow?_shift]
    have hfirst : pathBelow? (d.shift k) (a.shift k).first ((d.shift k).size + 1) (a.shift k).opening [] = _ := hpath a.first a.opening
    have hlast : pathBelow? (d.shift k) (a.shift k).last ((d.shift k).size + 1) (a.shift k).closing [] = _ := hpath a.last a.closing
    dsimp only
    rw [nodes_shift, hfirst, hlast]
    cases pathBelow? d a.first (d.size + 1) a.opening [] with
    | none => exact shifts_throw _
    | some opening =>
      cases pathBelow? d a.last (d.size + 1) a.closing [] with
      | none => exact shifts_throw _
      | some closing =>
        refine shifts_bind (a.shifts_copyAll t _ _ markers) fun clones ↦ shifts_bind (shifts_forM shifts_detach _) fun _ ↦
          shifts_bind (shifts_log _ _) fun _ ↦ shifts_bind shifts_document fun e ↦ ?_
        rw [List.head?_map, Continuation.ofNode_shift]
        exact shifts_pure (some _)

end Area

end Stencil
