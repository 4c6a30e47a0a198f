import Stencil.Program.FilePath
import Stencil.Renderer
/-!
The work of a command line as a function: what it finds, what it leaves behind, and what it says on
the way. Text goes to two places, the output itself and the messages beside it.
-/

namespace Stencil

inductive Failure where
  | unreadable (path : String) (cause : DiskError)
  | unreadableData (path : String) (cause : DiskError)
  | badConfiguration (path : String) (reason : String)
  | badData (path : String) (reason : String)
  | noTemplate (path : String)
  | cannotCreate (path : String) (cause : DiskError)
  | cannotWrite (path : String) (cause : DiskError)
  | cannotRender (path : String) (error : RunError)
  | doubtful (count total : Nat)
  | notRendered (count total : Nat)
  deriving DecidableEq, Repr

/-- The wording of a failure. The cause of an error follows it, also where the error has it in its
own wording. -/
def Failure.message : Failure → String
  | unreadable path cause => "Failed to read " ++ path ++ ": " ++ cause.message
  | unreadableData path cause => "Failed to read data file " ++ path ++ ": " ++ cause.message
  | badConfiguration path reason => "Invalid config file " ++ path ++ ": " ++ reason
  | badData path reason => "Invalid JSON in " ++ path ++ ": " ++ reason
  | noTemplate path => "Template path does not exist: " ++ path
  | cannotCreate path cause => "Failed to create " ++ path ++ ": " ++ cause.message
  | cannotWrite path cause => "Failed to write " ++ path ++ ": " ++ cause.message
  | cannotRender path error =>
    "Failed to render " ++ path ++ ": " ++ error.message NodeId.display ++
      match error.cause? with
      | some cause => ": " ++ cause
      | none => ""
  | doubtful count total => toString count ++ " of " ++ toString total ++ " templates have problems"
  | notRendered count total =>
    toString count ++ " of " ++ toString total ++ " templates failed to render"

/-- What work starts from: the working directory as an absolute path, how much the log shows, and
the time. -/
structure Environment where
  directory : String
  log? : Option LogLevel
  now : Calendar.Moment

/-- What work has done so far: the disk, the output and the messages, the latest of each first, and
what is left of the runs. -/
structure Session where
  disk : Disk
  output : List String
  messages : List String
  workshop : Workshop

def Session.ofDisk (disk : Disk) : Session := ⟨disk, [], [], ⟨Services.ofTtl 0, 0⟩⟩

/-- A piece of work. One that fails leaves behind what it did before. -/
abbrev Task := ExceptT Failure (StateM Session)

namespace Task

variable {α ε : Type}

def ofExcept (wrap : ε → Failure) : Except ε α → Task α
  | .ok a => pure a
  | .error e => throw (wrap e)

/-- Carries out work and keeps its failure as a value. -/
def attempt (work : Task α) : Task (Except Failure α) := ExceptT.lift work.run

def disk : Task Disk := do return (← get).disk

def write (text : String) : Task Unit := modify fun s ↦ { s with output := text :: s.output }

def say (line : String) : Task Unit := modify fun s ↦ { s with messages := line :: s.messages }

def sayAll : List String → Task Unit
  | [] => pure ()
  | line :: lines => do
    say line
    sayAll lines

def readText (wrap : String → DiskError → Failure) (path : String) : Task String := do
  ofExcept (wrap path) ((← disk).readText path)

def changeDisk (wrap : String → DiskError → Failure) (path : String)
    (change : Disk → Except DiskError Disk) : Task Unit := do
  let d ← ofExcept (wrap path) (change (← disk))
  modify fun s ↦ { s with disk := d }

/-- Writes a file, and makes the directory that is to hold it. -/
def writeFile (path text : String) : Task Unit := do
  match FilePath.parent? path with
  | some parent => changeDisk .cannotCreate parent fun d ↦ d.makeDirectories parent
  | none => pure ()
  changeDisk .cannotWrite path fun d ↦ d.write path (Text.encode text)

/-- Adds a line of the log to the messages, if the log shows events of its level. -/
def log (e : Environment) (level : LogLevel) (line : String) : Task Unit :=
  match e.log? with
  | none => pure ()
  | some limit => if limit.shows level then say (level.word ++ " " ++ line) else pure ()

/-- What a line of the log says first in a run over a document of some size. -/
def runMark (e : Environment) (size : Nat) : String :=
  if (e.log?.map fun limit ↦ limit.shows .info).getD false then "run\x7bnodes=" ++ toString size ++ "\x7d: "
  else ""

def logRun (e : Environment) (size : Nat) : List Event → Task Unit
  | [] => pure ()
  | x :: xs => do
    log e x.level (runMark e size ++ x.target ++ ": " ++ x.text NodeId.display)
    logRun e size xs

/-- The paths of templates: that of a file by itself, or those of the files of a directory that have
the extension of templates. -/
def templatesAt (target extension : String) : Task (List String) := do
  let d ← disk
  if d.isFileAt target then return [target]
  else if d.isDirectoryAt target then
    return (FilePath.filesBelow d target).filter fun p ↦ FilePath.extension? p == some extension
  else throw (.noTemplate target)

end Task

end Stencil
