import Stencil.Program.Check
import Stencil.Program.Render
/-!
The whole program as a function of the words of its command line and of what it finds around it.
-/

namespace Stencil

/-- What a program finds: the working directory as an absolute path, what the log is asked to show,
the time, and the disk. -/
structure Surroundings where
  directory : String
  logWord? : Option String
  now : Calendar.Moment
  disk : Disk

/-- What comes of a program: its exit code, its output, the lines beside it, and the disk. -/
structure Transcript where
  exitCode : Nat
  output : String
  messages : List String
  disk : Disk

/-- How much a log shows that is asked for by a word; nothing for a word that asks for nothing. Level
names count in either case, and numbers stand for them. -/
def logLimit? (word : String) : Option (Option LogLevel) :=
  let lower := String.ofList (word.toList.map Char.toLower)
  if lower = "off" ∨ lower = "0" then some none
  else if lower = "" ∨ lower = "error" ∨ lower = "1" then some (some .error)
  else if lower = "warn" ∨ lower = "2" then some (some .warn)
  else if lower = "info" ∨ lower = "3" then some (some .info)
  else if lower = "debug" ∨ lower = "4" then some (some .debug)
  else if lower = "trace" ∨ lower = "5" then some (some .trace)
  else none

namespace Surroundings

variable (s : Surroundings)

def log? (verbose : Bool) : Option LogLevel :=
  (s.logWord?.bind logLimit?).getD (some (if verbose then .debug else .info))

def environment (verbose : Bool) : Environment := ⟨s.directory, s.log? verbose, s.now⟩

/-- The paths outside of the working directory that a command line may lead to. -/
def paths (words : List String) : List String :=
  match Arguments.parse words with
  | .error _ => []
  | .ok a =>
    let configured := match ((Configuration.load s.directory).run (Session.ofDisk s.disk)).1 with
      | .ok c => c.paths
      | .error _ => []
    ((a.order.paths ++ configured).map (FilePath.join s.directory)).filter fun p ↦
      (FilePath.relativeTo? s.directory p).isNone || (FilePath.steps p).contains ".."

end Surroundings

namespace Transcript

def helpLines : List String :=
  ["Fill document templates from JSON data", "", "Usage: docweave [OPTIONS] <COMMAND>", "",
    "  docweave render [TEMPLATE] [-d|--data FILE] [-o|--out PATH] [-r|--resources DIR]",
    "                  [--fail-fast] [--unknown ignore|fail] [--report FILE] [-v|--verbose]",
    "  docweave check [TEMPLATE] [-v|--verbose]"]

def ofNotice (disk : Disk) : Notice → Transcript
  | .help => ⟨0, String.join (helpLines.map (· ++ "\n")), [], disk⟩
  | .version => ⟨0, "docweave 0.1.0\n", [], disk⟩
  | .faulty fault => ⟨2, "", ["error: " ++ fault.message], disk⟩

def ofSession (s : Session) : Except Failure Unit → Transcript
  | .ok () => ⟨0, String.join s.output.reverse, s.messages.reverse, s.disk⟩
  | .error failure =>
    ⟨1, String.join s.output.reverse, s.messages.reverse ++ ["", "Error: " ++ failure.message, ""], s.disk⟩

def ofWords (s : Surroundings) (words : List String) : Transcript :=
  match Arguments.parse words with
  | .error notice => ofNotice s.disk notice
  | .ok a =>
    let e := s.environment a.verbose
    let work := match a.order with
      | .check template? => Task.check e template?
      | .render options => Task.render e options
    let (result, session) := work.run (Session.ofDisk s.disk)
    ofSession session result

end Transcript

end Stencil
