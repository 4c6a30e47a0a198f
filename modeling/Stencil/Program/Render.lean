import Stencil.Command.Builtin
import Stencil.Program.Arguments
import Stencil.Program.Configuration
/-!
Rendering templates: a single one to the output or to a file, or all of a directory to files of the
same names in another. One renderer serves all of them.
-/

namespace Stencil

structure TemplateReport where
  template : String
  report : Report
  deriving DecidableEq, Repr

def Report.problems (r : Report) : List Problem := r.findings.map fun f ↦ f.problem NodeId.display

def TemplateReport.toJson (t : TemplateReport) : Json :=
  .obj [("template", .str t.template), ("executed", .int t.report.executed),
    ("ignored", .int t.report.ignored), ("problems", .arr (t.report.problems.map Problem.toJson))]

/-- Settings with what a command line asks for in their place. -/
def RenderOptions.settings (o : RenderOptions) (s : Settings) : Settings :=
  { s with failFast := s.failFast || o.failFast, unknownCommand := o.unknown?.getD s.unknownCommand }

namespace Task

/-- What all the templates are rendered with: the renderer, the directory of its resources, and the
data. -/
structure RenderJob where
  renderer : Renderer
  resources : String
  data : Datum

/-- Renders a template. A line feed at the end of the template stays. -/
def renderTemplate (e : Environment) (job : RenderJob) (path : String) : Task (String × Report) := do
  let source ← readText .unreadable path
  let renderer := { job.renderer with provider := .ofDisk (← disk) job.resources }
  let w := (← get).workshop
  let x := renderer.renderText w source (Model.ofData job.data)
  modify fun s ↦ { s with workshop := x.workshop }
  logRun e (w.document source).1.size x.events
  let report ← ofExcept (.cannotRender path) x.result
  return (if source.toList.getLast? == some '\n' then x.text ++ "\n" else x.text, report)

def sayProblems (r : Report) : Task Unit := sayAll (r.problems.map fun p ↦ "    warning: " ++ p.display)

/-- Renders a single template, to a file or to the output. -/
def renderSingle (e : Environment) (job : RenderJob) (path : String) (out? : Option String) :
    Task TemplateReport := do
  let (text, report) ← renderTemplate e job path
  match out? with
  | some out => writeFile (FilePath.join e.directory out) text
  | none => write text
  sayProblems report
  return ⟨path, report⟩

/-- Renders a template of one directory into another. The report, unless the template fails. -/
def renderInto (e : Environment) (job : RenderJob) (source out path : String) :
    Task (Option TemplateReport) := do
  let name := FilePath.relativeTo source path
  let target := FilePath.join out name
  let work : Task Report := do
    let (text, report) ← renderTemplate e job path
    writeFile target text
    return report
  match ← attempt work with
  | .ok report =>
    say ("  " ++ (if report.findings.isEmpty then "✓" else "!") ++ " " ++ name ++ " → " ++ target)
    sayProblems report
    return some ⟨name, report⟩
  | .error failure =>
    say ("  ✗ " ++ name ++ " - " ++ failure.message)
    return none

def renderEach (e : Environment) (job : RenderJob) (source out : String) :
    List String → Task (List (Option TemplateReport))
  | [] => return []
  | path :: paths => do
    let report? ← renderInto e job source out path
    return report? :: (← renderEach e job source out paths)

/-- Renders the templates of one directory into another. A template that fails does not keep the
others from being rendered. -/
def renderDirectory (e : Environment) (job : RenderJob) (source out : String) (templates : List String) :
    Task (List TemplateReport) := do
  say "Rendering templates..."
  if templates.isEmpty then
    say "No templates found"
    return []
  let results ← renderEach e job source out templates
  let reports := results.filterMap id
  say ""
  if reports.length < results.length then
    throw (.notRendered (results.length - reports.length) results.length)
  let problems := reports.foldl (fun n t ↦ n + t.report.findings.length) 0
  say ("Done Rendered " ++ toString reports.length ++ " templates, " ++ toString problems ++ " problems")
  return reports

/-- The data of a file; without one, none. -/
def loadData : Option String → Task Datum
  | none => return Datum.empty
  | some path => do
    let v ← ofExcept (.badData path) (Json.parse (← readText .unreadableData path))
    return Datum.ofJson v

/-- Renders the templates that a path leads to, or else those of the configured directory. -/
def render (e : Environment) (o : RenderOptions) : Task Unit := do
  let c ← Configuration.load e.directory
  let place := FilePath.join e.directory
  let resources := place (o.resources?.getD c.resources)
  let renderer : Renderer :=
    ⟨o.settings c.settings, .builtin, [], .ofDisk (← disk) resources, e.now⟩
  modify fun s ↦ { s with workshop := renderer.workshop }
  let data ← loadData ((o.data? <|> c.dataFile?).map place)
  let job : RenderJob := ⟨renderer, resources, data⟩
  let target := place (o.template?.getD c.sourceDir)
  let templates ← templatesAt target c.extension
  let single : Task (List TemplateReport) := do
    return [← renderSingle e job target o.out?]
  let reports ← if (← disk).isFileAt target then single
    else renderDirectory e job target (place (o.out?.getD c.outDir)) templates
  match o.report? with
  | some path => writeFile (place path) (Json.arr (reports.map TemplateReport.toJson)).prettyText
  | none => pure ()

end Task

end Stencil
