import Stencil.Alias
import Stencil.Cache
import Stencil.Document.Toolkit
import Stencil.Run.Event
/-!
The state of a run and the steps that change it. A step that fails keeps what was done before it,
so failure and state are kept apart: a step gives a result or an error, and a state in either case.
-/

namespace Stencil

/-- What the runs of one renderer share: sizes of images and texts of fragments, by the identity of
the resource; the handles fetched so far, the latest first; and, for each use of a cache to come,
whether the timers of that cache have fired before it. -/
structure Services where
  sizes : Cache PixelSize
  fragments : Cache String
  fetched : List String
  flushes : List Bool

/-- Services with empty caches, whose timers do not fire. -/
def Services.ofTtl (ttl : Nat) : Services := ⟨Cache.ofTtl ttl, Cache.ofTtl ttl, [], []⟩

/-- Services when the timers of the sizes have fired. -/
def Services.flushSizes (s : Services) : Services := { s with sizes := s.sizes.flush }

/-- Services when the timers of the fragments have fired. -/
def Services.flushFragments (s : Services) : Services := { s with fragments := s.fragments.flush }

/-- What a run has done: how many placeholders were carried out and how many were left, and what
went wrong, in order. -/
structure Report where
  executed : Nat
  ignored : Nat
  findings : List Finding
  deriving DecidableEq, Repr

def Report.empty : Report := ⟨0, 0, []⟩

/-- The state of a run. `searches` counts the searches begun, `nextSerial` numbers the next
document, and the log has its latest event first. -/
structure RunState where
  document : Document
  model : Model
  aliases : Aliases
  services : Services
  report : Report
  searches : Nat
  nextSerial : Nat
  log : List Event

abbrev Run := ExceptT RunError (StateM RunState)

namespace Run

variable {α : Type}

def log (e : Event) : Run Unit := modify fun s ↦ { s with log := e :: s.log }

def document : Run Document := do return (← get).document

def setDocument (d : Document) : Run Unit := modify fun s ↦ { s with document := d }

def model : Run Model := do return (← get).model

def setModel (m : Model) : Run Unit := modify fun s ↦ { s with model := m }

def ofExcept {ε : Type} (wrap : ε → RunError) : Except ε α → Run α
  | .ok a => pure a
  | .error e => throw (wrap e)

def edit (f : Document → Except DocumentError Document) : Run Unit := do
  setDocument (← ofExcept .document (f (← document)))

def editFor (f : Document → Except DocumentError (α × Document)) : Run α := do
  let (a, d) ← ofExcept .document (f (← document))
  setDocument d
  return a

def change (f : Document → Document) : Run Unit := do setDocument (f (← document))

def detach (id : NodeId) : Run Unit := edit fun d ↦ d.detach id

def push (name : String) (value : Datum) : Run Unit := do
  setModel (← ofExcept .path ((← model).push name value))

def enter (p : Path) : Run Unit := do
  let m ← model
  let next ← ofExcept .path (m.enter p)
  log (.movingCursor m.cursor.display next.cursor.display)
  setModel next

def search (t : Toolkit) (id : NodeId) : Run (Option NodeId) := do
  let s ← get
  let found := t.search (s.searches + 1) s.document id
  set { s with document := found.document, searches := s.searches + 1 }
  match found.split? with
  | some (node, marker) => log (.splittingText node marker)
  | none => pure ()
  ofExcept .document found.result

/-- Whether the timers of a cache have fired before the use of it that comes next. -/
def takeFlush : Run Bool := do
  let s ← get
  match s.services.flushes with
  | [] => return false
  | b :: bs =>
    set { s with services := { s.services with flushes := bs } }
    return b

/-- Flushes the cache that is used next, when its timers have fired. -/
def letFlush (flush : Services → Services) : Run Unit := do
  if ← takeFlush then modify fun s ↦ { s with services := flush s.services }

/-- The bytes behind a handle. The fetch is noted, whether it succeeds or not. -/
def fetch (p : Provider) (handle : String) : Run (List UInt8) := do
  modify fun s ↦ { s with services := { s.services with fetched := handle :: s.services.fetched } }
  let bytes ← ofExcept (.resource handle) (p.fetch handle)
  if p.logsReads then
    let id ← ofExcept (.resource handle) (p.identify handle)
    log (.read id bytes.length)
  return bytes

def identify (p : Provider) (handle : String) : Run String :=
  ofExcept (.resource handle) (p.identify handle)

def fetchText (p : Provider) (handle : String) : Run String := do
  let bytes ← fetch p handle
  ofExcept (fun e ↦ .resource handle (.notText e)) (Text.decode bytes)

/-- The size of the image behind a handle, kept for its identity. -/
def imageSize (p : Provider) (handle : String) : Run PixelSize := do
  let id ← identify p handle
  letFlush Services.flushSizes
  match (← get).services.sizes.get? id with
  | some size => return size
  | none =>
    let bytes ← fetch p handle
    match pixelSize? bytes with
    | none => throw (.resource handle .unknownImageFormat)
    | some size =>
      modify fun s ↦ { s with services := { s.services with sizes := s.services.sizes.put id size } }
      return size

/-- The text of the fragment behind a handle, kept for its identity. -/
def fragmentText (p : Provider) (handle : String) : Run String := do
  let id ← identify p handle
  letFlush Services.flushFragments
  match (← get).services.fragments.get? id with
  | some text => return text
  | none =>
    let text ← fetchText p handle
    modify fun s ↦ { s with services := { s.services with fragments := s.services.fragments.put id text } }
    return text

/-- The document of a text, with a number of its own. -/
def newDocument (text : String) : Run Document := do
  let s ← get
  set { s with nextSerial := s.nextSerial + 1 }
  return Document.ofText s.nextSerial text

end Run

end Stencil
