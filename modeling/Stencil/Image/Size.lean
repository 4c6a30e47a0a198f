import Stencil.Power
/-!
Sizes of images, in pixels. A side that is not given keeps the aspect ratio, rounded to the nearest
pixel; sizes are held in words of 32 bits. A PNG image begins with a fixed signature and a header
that holds width and height in four bytes each, the highest first.
-/

namespace Stencil

structure PixelSize where
  width : Nat
  height : Nat
  deriving DecidableEq, Repr

inductive SizePolicy where
  | natural
  | keepWidth (width : Nat)
  | keepHeight (height : Nat)
  | fixed (width height : Nat)
  deriving DecidableEq, Repr

namespace SizePolicy

/-- The number of values of a size. -/
def wordSize : Nat := twoTo 32

/-- `value · num / den`, rounded, in a word; zero when there is nothing to divide by. -/
def scale (value num den : Nat) : Nat :=
  if den = 0 then 0 else (value * num + den / 2) / den % wordSize

def apply : SizePolicy → PixelSize → PixelSize
  | natural, s => s
  | keepWidth w, s => ⟨w, scale s.height w s.width⟩
  | keepHeight h, s => ⟨scale s.width h s.height, h⟩
  | fixed w h, _ => ⟨w, h⟩

def ofSides : Option Nat → Option Nat → SizePolicy
  | some w, some h => fixed w h
  | some w, none => keepWidth w
  | none, some h => keepHeight h
  | none, none => natural

end SizePolicy

def pngSignature : List UInt8 := [0x89, 0x50, 0x4E, 0x47, 0x0D, 0x0A, 0x1A, 0x0A]

/-- The number in bytes, the highest first. -/
def bigEndian (bytes : List UInt8) : Nat := bytes.foldl (fun n b ↦ n * 256 + b.toNat) 0

/-- The size of an image; nothing when the bytes are of no known format. -/
def pixelSize? (bytes : List UInt8) : Option PixelSize :=
  if bytes.take 8 = pngSignature then
    some ⟨bigEndian ((bytes.drop 16).take 4), bigEndian ((bytes.drop 20).take 4)⟩
  else none

end Stencil
