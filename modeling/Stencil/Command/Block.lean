import Stencil.Run.Area
import Stencil.Command.Missing
/-!
Commands that open blocks: a part of the document that stays only under a condition, and one whose
placeholders are left alone.
-/

namespace Stencil.Handler

/-- Keeps what stands up to the closing placeholder when a condition holds, and deletes it
otherwise. The placeholders at both ends go in either case. -/
def conditional : Handler where
  names := ["If"]
  execute s := do
    let condition ← Run.ofExcept .condition (Condition.ofParams s.command.params)
    let closing ← s.areaEnd ["If"] "EndIf"
    let holds := condition.holds (Condition.orderIn (← Run.model))
    Run.log (.evaluated holds)
    if holds then
      let _ ← s.toolkit
      Run.edit fun d ↦ d.deletePlaceholder closing
      return .executed (← Selection.removePlaceholder s.node)
    else
      let area ← Area.isolate s.node closing
      return .ofEdit (← area.delete none true)

/-- Refuses a closing placeholder: had it been opened, the scan would not have met it. -/
def closing : Handler where
  names := ["EndIf", "EndFor", "EndIgnore"]
  execute s := throw (.structure (.notOpened s.command.name))

def ignoredEnd? (s : Selection) : Run (Option NodeId) :=
  tryCatch (return some (← s.areaEnd [] "EndIgnore")) fun e ↦ match e with
    | .structure _ => pure none
    | _ => throw e

/-- Leaves the placeholders up to the closing one as they are, or up to the end of the document when
none closes. -/
def ignored : Handler where
  names := ["Ignore"]
  execute s := do
    let _ ← s.toolkit
    match ← ignoredEnd? s with
    | some closing =>
      let next ← Selection.removePlaceholder closing
      Run.edit fun d ↦ d.deletePlaceholder s.node
      return .executed next
    | none =>
      Run.log .ignoresToEnd
      Run.edit fun d ↦ d.deletePlaceholder s.node
      return .executed .stop

end Stencil.Handler
