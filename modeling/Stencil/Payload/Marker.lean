import Stencil.Json.Text
import Stencil.Payload.Command
import Stencil.Payload.Reader
/-!
Markers in text: a payload between two delimiters. The closing delimiter counts only outside quotes
and where braces and brackets are balanced, so that a payload may hold nested values. Commands are
written so that reading gives them back.
-/

namespace Stencil

structure Delimiters where
  opening : String
  closing : String
  deriving DecidableEq, Repr

/-- A dollar sign and a pair of braces. -/
def Delimiters.default : Delimiters := ⟨"$\x7b", "\x7d"⟩

namespace Payload

structure Cut where
  before : List Char
  payload : List Char
  after : List Char
  deriving DecidableEq, Repr

/-- How deep a character leads. A closing bracket too many does not count. -/
def deepen (depth : Nat) (c : Char) : Nat :=
  if c = '\x7b' ∨ c = '[' then depth + 1
  else if c = '\x7d' ∨ c = ']' then depth - 1
  else depth

/-- Cuts text at the closing delimiter: the payload before it and what follows it. -/
def close (closing : List Char) : Quoting → Nat → List Char → Option (List Char × List Char)
  | _, _, [] => none
  | .outside, depth, c :: s =>
    let end? := if depth = 0 then Text.stripPrefix? closing (c :: s) else none
    match end? with
    | some r => some ([], r)
    | none =>
      let depth := deepen depth c
      (close closing (Quoting.outside.step c) depth s).map fun p ↦ (c :: p.1, p.2)
  | q, depth, c :: s => (close closing (q.step c) depth s).map fun p ↦ (c :: p.1, p.2)

/-- Cuts text at its first marker. An opening delimiter without its closing one is text. The first
argument bounds the number of tries. -/
def cutWithin (opening closing : List Char) : Nat → List Char → Option Cut
  | 0, _ => none
  | n + 1, s => match Text.breakOn? opening s with
    | none => none
    | some (before, r) => match close closing .outside 0 r with
      | some (payload, after) => some ⟨before, payload, after⟩
      | none => (cutWithin opening closing n r).map fun c ↦ { c with before := before ++ opening ++ c.before }

end Payload

namespace Delimiters

open Payload

def cut? (d : Delimiters) (s : List Char) : Option Cut :=
  cutWithin d.opening.toList d.closing.toList (s.length + 1) s

def enclose (d : Delimiters) (payload : List Char) : List Char :=
  d.opening.toList ++ payload ++ d.closing.toList

/-- The payload of a text that is one marker from end to end. -/
def payload? (d : Delimiters) (s : List Char) : Option (List Char) :=
  match d.cut? s with
  | some ⟨[], p, []⟩ => some p
  | _ => none

def isMarker (d : Delimiters) (s : List Char) : Bool := (d.payload? s).isSome

structure Marker where
  start : Nat
  payload : List Char
  deriving DecidableEq, Repr

def payloadSpan (d : Delimiters) (m : Marker) : Span :=
  let start := m.start + Text.width d.opening.toList
  ⟨start, start + Text.width m.payload⟩

def span (d : Delimiters) (m : Marker) : Span :=
  ⟨m.start, m.start + Text.width (d.enclose m.payload)⟩

/-- The markers of a text that starts at a position. The first argument bounds their number. -/
def markersFrom (d : Delimiters) : Nat → Nat → List Char → List Marker
  | 0, _, _ => []
  | n + 1, i, s => match d.cut? s with
    | none => []
    | some c =>
      let m : Marker := ⟨i + Text.width c.before, c.payload⟩
      m :: markersFrom d n (d.span m).stop c.after

def markers (d : Delimiters) (s : List Char) : List Marker := d.markersFrom (s.length + 1) 0 s

/-- The first marker at or behind byte `n`. -/
def markerFrom? (d : Delimiters) (s : List Char) (n : Nat) : Option Marker :=
  (Text.dropBytes? n s).bind fun r ↦ (d.cut? r).map fun c ↦ ⟨n + Text.width c.before, c.payload⟩

end Delimiters

namespace Payload

/-- Whether a key can be written without quotes: a word, maybe with a mark in front, that does not
stand for a value. -/
def isBareKey (key : List Char) : Bool :=
  let word := match key with
    | c :: s => if isMark c then s else c :: s
    | [] => []
  (match word with
    | c :: s => isWordStart c && s.all isWordRest
    | [] => false) &&
  (match wordToken key with
    | .ident _ => true
    | _ => false)

def writeKey (key : String) : List Char :=
  if isBareKey key.toList then key.toList else Json.quote key.toList

def writeEntries : List Char → Entries Json → List Char
  | _, [] => []
  | lead, (k, v) :: es => lead ++ writeKey k ++ ':' :: Json.compact v ++ writeEntries [',', ' '] es

def writeCommand (c : Command) : List Char := c.name.toList ++ writeEntries [' '] c.params

def write : Commands → List Char
  | [] => []
  | [c] => writeCommand c
  | c :: cs => writeCommand c ++ ';' :: ' ' :: write cs

end Payload

def Delimiters.marker (d : Delimiters) (cs : Commands) : String :=
  String.ofList (d.enclose (Payload.write cs))

end Stencil
