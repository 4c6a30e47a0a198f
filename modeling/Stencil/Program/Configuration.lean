import Stencil.Program.Session
import Stencil.Settings
/-!
The configuration of a directory: a file of data text that says where templates, output, data and
resources are, and how templates are rendered. Everything in it may be left out, and so may the file.
-/

namespace Stencil

/-- A configuration. Paths are as they were written. -/
structure Configuration where
  sourceDir : String
  outDir : String
  extension : String
  dataFile? : Option String
  resourceDir? : Option String
  settings : Settings
  deriving DecidableEq, Repr

namespace Configuration

def fileName : String := "docweave.config.json"

def default : Configuration := ⟨"templates", "out", "txt", none, none, Settings.default⟩

def field {α : Type} (name : String) (read : List Char → Except Json.Fault (α × List Char))
    (put : Configuration → α → Configuration) : Json.Field Configuration where
  name := name
  read c text := do
    let (a, r) ← read text
    .ok (put c a, r)

def form : Json.RecordForm Configuration where
  title := "struct Config"
  fields := [
    field "srcDir" Json.readText fun c s ↦ { c with sourceDir := s },
    field "outDir" Json.readText fun c s ↦ { c with outDir := s },
    field "templateExtension" Json.readText fun c s ↦ { c with extension := s },
    field "dataFile" Json.readText? fun c s? ↦ { c with dataFile? := s? },
    field "resourceDir" Json.readText? fun c s? ↦ { c with resourceDir? := s? },
    field "engine" (Settings.form.read Settings.default) fun c s ↦ { c with settings := s }]

def load (directory : String) : Task Configuration := do
  let path := FilePath.join directory fileName
  if (← Task.disk).locate path |>.toOption.isSome then
    let source ← Task.readText .unreadable path
    Task.ofExcept (.badConfiguration path) (form.parse default source)
  else return default

/-- The directory of resources: that of the templates unless another is given. -/
def resources (c : Configuration) : String := c.resourceDir?.getD c.sourceDir

def paths (c : Configuration) : List String :=
  [c.sourceDir, c.outDir] ++ c.dataFile?.toList ++ c.resourceDir?.toList

end Configuration

end Stencil
