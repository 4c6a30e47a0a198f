import Stencil.Program.Entry
import Std.Time.Format
/-!
The command line. It finds what there is, lets the program work on that, and does to the files what
the program did to its picture of them.
-/

namespace Stencil

def localTime : IO Calendar.Moment := do
  let t ← Std.Time.PlainDateTime.now
  let date := Calendar.Date.ofMonthDay? t.year.toInt t.month.val.toNat t.day.val.toNat
  return ⟨date.getD ⟨t.year.toInt, 1⟩,
    ⟨t.hour.val.toNat, t.minute.val.toNat, t.second.val.toNat, t.nanosecond.val.toNat⟩⟩

/-- The names of an absolute path without detours. -/
def placeOf (path : String) : List String := FilePath.steps path

/-- Adds what an entry of a directory leads to. The first argument bounds how deep directories are
looked into; what cannot be read is left out. -/
def Disk.addEntry : Nat → Disk → IO.FS.DirEntry → IO Disk
  | 0, d, _ => return d
  | n + 1, d, entry => do
    let place := placeOf entry.path.toString
    try
      if ← entry.path.isDir then
        let mut d := { d with directories := place :: d.directories }
        for e in ← entry.path.readDir do
          d ← addEntry n d e
        return d
      else
        let bytes ← IO.FS.readBinFile entry.path
        return d.put place bytes.toList
    catch _ => return d

def maxDepth : Nat := 64

def Disk.addPath (d : Disk) (path : String) : IO Disk := do
  try
    let real ← IO.FS.realPath path
    d.addEntry maxDepth ⟨real, ""⟩
  catch _ => return d

/-- Does to the files what was done to a picture of them. -/
def Disk.store (before after : Disk) : IO Unit := do
  for place in after.directories do
    if !before.directories.contains place then IO.FS.createDirAll (Disk.pathOf place)
  for f in after.files do
    if before.file? f.place != some f.bytes then
      IO.FS.createDirAll (Disk.pathOf f.place.dropLast)
      IO.FS.writeBinFile (Disk.pathOf f.place) ⟨f.bytes.toArray⟩

end Stencil

open Stencil in
def main (words : List String) : IO UInt32 := do
  let directory := (← IO.currentDir).toString
  let disk ← Disk.addPath ⟨[], []⟩ directory
  let found : Surroundings := ⟨directory, ← IO.getEnv "RUST_LOG", ← localTime, disk⟩
  let mut disk := disk
  for path in found.paths words do
    disk ← disk.addPath path
  let t := Transcript.ofWords { found with disk := disk } words
  disk.store t.disk
  IO.print t.output
  for line in t.messages do
    IO.eprintln line
  return t.exitCode.toUInt32
