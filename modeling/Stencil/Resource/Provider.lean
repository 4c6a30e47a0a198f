import Stencil.Entries
import Stencil.Image.Size
import Stencil.Resource.Disk
import Stencil.Text.Utf8
/-!
Providers of resources. A provider knows what stands behind a handle: an identity, which is the same
for all handles of one resource, and bytes.
-/

namespace Stencil

inductive ResourceCause where
  | unknownHandle
  | onDisk (cause : DiskError)
  | notText (cause : Text.Utf8Error)
  | unknownImageFormat
  deriving DecidableEq, Repr

def ResourceCause.message : ResourceCause → String
  | unknownHandle => "resource not found"
  | onDisk cause => cause.message
  | notText cause => cause.message
  | unknownImageFormat => "The image format could not be determined"

/-- A provider: the identity behind a handle, the bytes behind an identity, and whether reading is
noted in the log. -/
structure Provider where
  identify : String → Except ResourceCause String
  fetch : String → Except ResourceCause (List UInt8)
  logsReads : Bool

namespace Provider

def empty : Provider := ⟨fun _ ↦ .error .unknownHandle, fun _ ↦ .error .unknownHandle, false⟩

def ofEntries (es : Entries (List UInt8)) : Provider where
  identify handle := if es.has handle then .ok ("memory:" ++ handle) else .error .unknownHandle
  fetch handle := match es.get? handle with
    | some bytes => .ok bytes
    | none => .error .unknownHandle
  logsReads := false

/-- The absolute path of a handle: the handle itself when it is one, else below a base directory. -/
def pathBelow (base handle : String) : String :=
  match handle.toList with
  | '/' :: _ => handle
  | _ => base ++ "/" ++ handle

/-- The provider of files below a base directory. The path walked without detours is the
identity. -/
def ofDisk (disk : Disk) (base : String) : Provider where
  identify handle := match disk.locate (pathBelow base handle) with
    | .ok place => .ok (Disk.pathOf place)
    | .error e => .error (.onDisk e)
  fetch handle := match disk.read (pathBelow base handle) with
    | .ok bytes => .ok bytes
    | .error e => .error (.onDisk e)
  logsReads := true

end Provider

end Stencil
