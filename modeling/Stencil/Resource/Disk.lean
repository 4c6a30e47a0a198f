import Stencil.Text.Offset
import Stencil.Text.Utf8
/-!
A file system as a value: files and directories under one root. A place is a list of names, from
the root down. A written path is walked name by name, and every name but the last must be that of a
directory.
-/

namespace Stencil

/-- A file by its names from the root down, with its bytes. -/
structure DiskFile where
  place : List String
  bytes : List UInt8

/-- Files, and the directories that are there without them. -/
structure Disk where
  files : List DiskFile
  directories : List (List String)

inductive DiskError where
  | notFound
  | notDirectory
  | isDirectory
  | occupied
  | notText
  deriving DecidableEq, Repr

def DiskError.message : DiskError → String
  | notFound => "No such file or directory (os error 2)"
  | notDirectory => "Not a directory (os error 20)"
  | isDirectory => "Is a directory (os error 21)"
  | occupied => "File exists (os error 17)"
  | notText => "stream did not contain valid UTF-8"

namespace Disk

def isBelow (place : List String) (other : List String) : Bool :=
  decide (place.length < other.length) && other.take place.length == place

def file? (d : Disk) (place : List String) : Option (List UInt8) :=
  (d.files.find? fun f ↦ f.place == place).map DiskFile.bytes

/-- Whether there is a directory at a place: the root, and whatever holds something, is one. -/
def isDirectory (d : Disk) (place : List String) : Bool :=
  place.isEmpty || d.directories.contains place || d.files.any (fun f ↦ isBelow place f.place) ||
    d.directories.any (isBelow place)

def has (d : Disk) (place : List String) : Bool := (d.file? place).isSome || d.isDirectory place

/-- Walks names from a place on. An empty name and a dot stay in the directory, two dots leave it. -/
def walk (d : Disk) : List String → List String → Except DiskError (List String)
  | place, [] => .ok place
  | place, n :: ns =>
    if d.isDirectory place = false then .error .notDirectory
    else if n = "" ∨ n = "." then walk d place ns
    else if n = ".." then walk d place.dropLast ns
    else if d.has (place ++ [n]) then walk d (place ++ [n]) ns
    else .error .notFound

def namesOf (path : String) : List String := (Text.splitOn '/' path.toList).map String.ofList

def locate (d : Disk) (path : String) : Except DiskError (List String) :=
  if path.isEmpty then .error .notFound else d.walk [] (namesOf path)

def pathOf (place : List String) : String := "/" ++ "/".intercalate place

def read (d : Disk) (path : String) : Except DiskError (List UInt8) := do
  let place ← d.locate path
  match d.file? place with
  | some bytes => .ok bytes
  | none => .error .isDirectory

def put (d : Disk) (place : List String) (bytes : List UInt8) : Disk :=
  { d with files := ⟨place, bytes⟩ :: d.files.filter fun f ↦ f.place != place }

def dropEmptyEnd (names : List String) : List String := (names.reverse.dropWhile fun n ↦ n = "").reverse

/-- Writes a file at an absolute path; the directory that is to hold it must be there. A path that
ends with a slash can only be that of a directory. -/
def write (d : Disk) (path : String) (bytes : List UInt8) : Except DiskError Disk := do
  let names := namesOf path
  let kept := dropEmptyEnd names
  match kept.getLast? with
  | none => .error .isDirectory
  | some n =>
    let directory ← d.walk [] kept.dropLast
    if d.isDirectory directory = false then .error .notDirectory
    else if n = "." ∨ n = ".." ∨ kept.length < names.length then .error .isDirectory
    else if d.isDirectory (directory ++ [n]) then .error .isDirectory
    else .ok (d.put (directory ++ [n]) bytes)

/-- Makes the directories of a path that are not there, from a place on. -/
def makeDirectoriesFrom (d : Disk) : List String → List String → Except DiskError Disk
  | _, [] => .ok d
  | place, n :: ns =>
    if n = "" ∨ n = "." then makeDirectoriesFrom d place ns
    else if n = ".." then makeDirectoriesFrom d place.dropLast ns
    else
      let next := place ++ [n]
      if (d.file? next).isSome then .error (if ns.isEmpty then .occupied else .notDirectory)
      else if d.isDirectory next then makeDirectoriesFrom d next ns
      else makeDirectoriesFrom { d with directories := d.directories ++ [next] } next ns

def makeDirectories (d : Disk) (path : String) : Except DiskError Disk :=
  d.makeDirectoriesFrom [] (namesOf path)

def readText (d : Disk) (path : String) : Except DiskError String := do
  match Text.decode (← d.read path) with
  | .ok s => .ok s
  | .error _ => .error .notText

def isFileAt (d : Disk) (path : String) : Bool :=
  match d.locate path with
  | .ok place => (d.file? place).isSome
  | .error _ => false

def isDirectoryAt (d : Disk) (path : String) : Bool :=
  match d.locate path with
  | .ok place => d.isDirectory place
  | .error _ => false

/-- The files below the directory that an absolute path leads to, each by its names from there. -/
def filesBelow (d : Disk) (path : String) : List (List String) :=
  match d.locate path with
  | .ok place => (d.files.filter fun f ↦ isBelow place f.place).map fun f ↦ f.place.drop place.length
  | .error _ => []

end Disk

end Stencil
