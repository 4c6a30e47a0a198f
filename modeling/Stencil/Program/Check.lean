import Stencil.Command.Builtin
import Stencil.Inspection
import Stencil.Payload.Excerpt
import Stencil.Program.Configuration
/-!
Checking templates: every placeholder is listed with its line, and what is wrong or doubtful is
said. The templates are as they are afterwards.
-/

namespace Stencil.Task

def writeLines : List String → Task Unit
  | [] => pure ()
  | line :: lines => do
    write (line ++ "\n")
    writeLines lines

def errorLines (name : String) (source : List Char) (e : Payload.Error) : List String :=
  e.headline :: match e.placeText? name source with
    | some place => ["   ╭─[" ++ place ++ "]"]
    | none => []

/-- Checks a template. Whether all is well with it. -/
def checkTemplate (e : Environment) (d : Delimiters) (path : String) : Task Bool := do
  let source ← readText .unreadable path
  let sites := Site.ofTemplate d source
  let found := Inspection.ofSites Registry.builtin.has sites
  let count := toString sites.length
  log e .debug ("docweave::commands::check: checked template=" ++ path ++ " placeholders=" ++ count)
  let name := FilePath.relativeTo e.directory path
  say ("  " ++ (if found.isClean then "✓" else "✗") ++ " " ++ name ++ " (" ++ count ++ " placeholders)")
  writeLines (sites.map fun s ↦ name ++ ":" ++ toString s.line ++ ": " ++ s.marker)
  sayAll (found.warnings.map fun w ↦ "    warning: " ++ w.message)
  sayAll (found.errors.flatMap (errorLines name source.toList))
  return found.isClean

/-- Checks templates. How many of them all is not well with. -/
def checkTemplates (e : Environment) (d : Delimiters) : List String → Task Nat
  | [] => return 0
  | path :: paths => do
    let clean ← checkTemplate e d path
    let failed ← checkTemplates e d paths
    return if clean then failed else failed + 1

/-- Checks the templates that a path leads to, or else those of the configured directory. -/
def check (e : Environment) (template? : Option String) : Task Unit := do
  let c ← Configuration.load e.directory
  let templates ← templatesAt (FilePath.join e.directory (template?.getD c.sourceDir)) c.extension
  say "Checking templates..."
  let failed ← checkTemplates e c.settings.delimiters templates
  say ""
  if failed = 0 then say ("Done " ++ toString templates.length ++ " templates look fine")
  else throw (.doubtful failed templates.length)

end Stencil.Task
