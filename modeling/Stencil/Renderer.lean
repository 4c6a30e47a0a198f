import Stencil.Run.Scan
/-!
Renderers. A renderer is made once and used for any number of runs, each with a document and a model
of its own; what the runs share are the caches of resources.
-/

namespace Stencil

/-- A renderer: settings, commands, the aliases that every run begins with, resources, and the time
that its clock shows. -/
structure Renderer where
  settings : Settings
  registry : Registry
  aliases : Aliases
  provider : Provider
  now : Calendar.Moment

/-- What is left of the runs so far: the caches, and the number of the next document. -/
structure Workshop where
  services : Services
  nextSerial : Nat

/-- What comes of a run: a report or an error, and the state in either case. -/
structure RunResult where
  result : Except RunError Report
  state : RunState

namespace Workshop

def document (w : Workshop) (text : String) : Document × Workshop :=
  (Document.ofText w.nextSerial text, { w with nextSerial := w.nextSerial + 1 })

end Workshop

namespace RunResult

def workshop (r : RunResult) : Workshop := ⟨r.state.services, r.state.nextSerial⟩

def events (r : RunResult) : List Event := r.state.log.reverse

def text (r : RunResult) : String := r.state.document.toText

end RunResult

namespace Renderer

variable (r : Renderer)

def workshop : Workshop := ⟨Services.ofTtl r.settings.cacheTtl, 0⟩

def start (w : Workshop) (d : Document) (m : Model) : RunState where
  document := d
  model := m
  aliases := r.aliases
  services := w.services
  report := .empty
  searches := 0
  nextSerial := w.nextSerial
  log := []

def scanner (toolkit : Toolkit) : Scanner := ⟨r.settings, r.registry, toolkit, r.provider, r.now⟩

/-- Carries out every placeholder of a document. -/
def run (toolkit : Toolkit) (w : Workshop) (d : Document) (m : Model) : RunResult :=
  let (result, state) := (r.scanner toolkit).scan.run (r.start w d m)
  ⟨result, state⟩

/-- Renders a text, one paragraph a line. -/
def renderText (w : Workshop) (template : String) (m : Model) : RunResult :=
  let (d, w) := w.document template
  r.run (Toolkit.ofDelimiters r.settings.delimiters) w d m

end Renderer

end Stencil
