import Stencil.Run.Registry
import Stencil.Settings
/-!
The scan of a document. It meets placeholders in document order, carries out the commands of each,
and goes on where the last of them says. What lies behind it is not looked at again, so that text
written by a command is not taken for a placeholder.
-/

namespace Stencil

structure Scanner where
  settings : Settings
  registry : Registry
  toolkit : Toolkit
  provider : Provider
  now : Calendar.Moment

/-- A placeholder that the scan has met: its node, its text, and the node behind it before any of
its commands was carried out. -/
structure Placeholder where
  node : NodeId
  marker : String
  successor? : Option NodeId
  deriving DecidableEq, Repr

namespace Run

/-- Carries out a step and keeps its error as a value. -/
def attempt {α : Type} (step : Run α) : Run (Except RunError α) := ExceptT.lift step.run

def changeReport (f : Report → Report) : Run Unit := modify fun s ↦ { s with report := f s.report }

def countExecuted : Run Unit := changeReport fun r ↦ { r with executed := r.executed + 1 }

def countIgnored : Run Unit := changeReport fun r ↦ { r with ignored := r.ignored + 1 }

end Run

namespace Scanner

variable (s : Scanner)

/-- Notes what went wrong at a placeholder, or ends the run with it. -/
def record (p : Placeholder) (command? : Option String) (e : RunError) : Run Unit := do
  if s.settings.failFast then throw e
  let finding : Finding := ⟨e, command?, p.marker⟩
  Run.log (.recorded finding)
  Run.changeReport fun r ↦ { r with findings := r.findings ++ [finding] }

def selection (p : Placeholder) (c : Command) : Selection := ⟨p.node, c, some s.toolkit, s.provider, s.now⟩

/-- Removes a placeholder of which every command was carried out, the last of which is given. -/
def finish (p : Placeholder) (c : Command) : Run (Option Continuation) := do
  match ← Run.attempt (s.selection p c).deletePlaceholder with
  | .ok (some next) =>
    Run.countExecuted
    return some next
  | .ok none => return none
  | .error e =>
    s.record p (some c.name) e
    return none

/-- Carries out commands one after another, up to the first that changes the document or leaves the
placeholder alone. Where the scan is to go on, unless the placeholder stays. -/
def carryOut (p : Placeholder) : Commands → Run (Option Continuation)
  | [] => return none
  | c :: rest => match s.registry.get? c.name with
    | none => throw (.unknownCommand c.name)
    | some handler => do
      Run.log (.dispatching c.name p.node)
      match ← Run.attempt (handler.execute (s.selection p c)) with
      | .ok .consumed => if rest.isEmpty then s.finish p c else carryOut p rest
      | .ok .ignored =>
        Run.countIgnored
        return none
      | .ok (.executed next) =>
        Run.countExecuted
        if !rest.isEmpty then
          s.record p (some c.name) (.structure (.leftover rest.length c.name))
        return some next
      | .error e =>
        s.record p (some c.name) e
        return none

/-- Carries out the commands of a placeholder, none of them unless all are known. -/
def dispatch (p : Placeholder) (cs : Commands) : Run (Option Continuation) := do
  let aliases := (← get).aliases
  let commands := cs.map aliases.expand
  match commands.find? fun c ↦ !s.registry.has c.name with
  | none => s.carryOut p commands
  | some c => match s.settings.unknownCommand with
    | .ignore =>
      Run.log (.ignoredUnknown c.name)
      Run.countIgnored
      return none
    | .fail => throw (.unknownCommand c.name)

/-- Where a scan goes on: a place outside of the tree is replaced by the former successor of the
placeholder, as far as that is in the tree. -/
def resumption (d : Document) (p : Placeholder) : Continuation → Option NodeId
  | .proceed => if d.isAttached p.node then d.nextAfter? p.node else p.successor?.filter d.isAttached
  | .at target => if d.isAttached target then some target else p.successor?.filter d.isAttached
  | .stop => none

def resume (p : Placeholder) (next? : Option Continuation) : Run (Option NodeId) := do
  let place? := resumption (← Run.document) p (next?.getD .proceed)
  if place?.isNone then Run.log (.scanEnds p.node)
  return place?

/-- Deals with a placeholder. The node to go on at. -/
def visit (id : NodeId) : Run (Option NodeId) := do
  let d ← Run.document
  let p : Placeholder := ⟨id, (d.text? id).getD "", d.nextAfter? id⟩
  match d.payload? s.toolkit.delimiters id with
  | none => return p.successor?
  | some payload =>
    Run.log (.found id p.marker)
    match Payload.read payload with
    | .ok commands => resume p (← s.dispatch p commands)
    | .error e =>
      Run.countIgnored
      s.record p none (.payload e)
      return p.successor?

/-- Scans from a node on. The first argument is how many placeholders may still be met. -/
def scanFrom : Nat → NodeId → Run Unit
  | left, id => do
    match ← Run.search s.toolkit id with
    | none => pure ()
    | some found => match left with
      | 0 => throw (.stepLimit s.settings.maxSteps)
      | n + 1 => match ← s.visit found with
        | none => pure ()
        | some next => scanFrom n next

/-- A whole run: the scan of the document from its root, and the report of it. -/
def scan : Run Report := do
  Run.log .started
  s.scanFrom s.settings.maxSteps (← Run.document).root
  let report := (← get).report
  Run.log (.completed report.executed report.ignored report.findings.length)
  return report

end Scanner

end Stencil
