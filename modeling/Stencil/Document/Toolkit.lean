import Stencil.Document.Plain
import Stencil.Payload.Marker
import Stencil.Text.Blank
/-!
Placeholders in documents. A placeholder is a text that is one marker from end to end; a marker
that shares its text with other characters is split out when a search meets it.
-/

namespace Stencil

structure Image where
  name : String
  source : String
  width : Nat
  height : Nat
  deriving DecidableEq, Repr

/-- What a search leaves behind: the document, the text that was split, if any, with its marker,
and the placeholder found. -/
structure Search where
  document : Document
  split? : Option (NodeId × String)
  result : Except DocumentError (Option NodeId)

namespace Document

variable (d : Document)

/-- Creates a text behind a node. The text stays in the arena when it may not stand there. -/
def addTextAfter (ref : NodeId) (s : String) : Document × Except DocumentError NodeId :=
  let (id, d) := d.createText s
  match d.insertAfter ref id with
  | .ok d => (d, .ok id)
  | .error e => (d, .error e)

/-- Splits a text around a marker in it. The text before the marker stays in the node, or the
marker itself when nothing is before it. -/
def splitAround (id : NodeId) (before marker after : String) : Document × Except DocumentError NodeId :=
  let (d, placed) :=
    if before.isEmpty then (d.putText id marker, .ok id)
    else (d.putText id before).addTextAfter id marker
  match placed with
  | .error e => (d, .error e)
  | .ok place =>
    if after.isEmpty then (d, .ok place)
    else
      let (d, rest) := d.addTextAfter place after
      (d, rest.map fun _ ↦ place)

/-- Splits the first marker of a node's text out, if there is one. -/
def isolate (delimiters : Delimiters) (id : NodeId) : Search :=
  match (d.text? id).bind fun s ↦ delimiters.cut? s.toList with
  | none => ⟨d, none, .ok none⟩
  | some cut =>
    if cut.before.isEmpty && cut.after.isEmpty then ⟨d, none, .ok (some id)⟩
    else
      let marker := String.ofList (delimiters.enclose cut.payload)
      let (e, placed) := d.splitAround id (String.ofList cut.before) marker (String.ofList cut.after)
      ⟨e, some (id, marker), placed.map some⟩

/-- The first placeholder at or behind a node. The first argument bounds the number of nodes. -/
def searchFrom (delimiters : Delimiters) : Nat → Document → NodeId → Search
  | 0, d, _ => ⟨d, none, .ok none⟩
  | n + 1, d, id =>
    let s := d.isolate delimiters id
    match s.result with
    | .ok none => match d.nextInOrder? id with
      | none => s
      | some next => searchFrom delimiters n d next
    | _ => s

def search (delimiters : Delimiters) (id : NodeId) : Search :=
  searchFrom delimiters (d.size + 1) d id

def payload? (delimiters : Delimiters) (id : NodeId) : Option (List Char) :=
  (d.text? id).bind fun s ↦ delimiters.payload? s.toList

/-- The paragraph that a node is or stands in, else the node itself. -/
def blockOf (id : NodeId) : NodeId :=
  ((id :: d.ancestors id).find? fun a ↦ d.tag? a == some paragraphTag).getD id

/-- Whether a node is a text of nothing but blanks. -/
def isBlankText (id : NodeId) : Bool :=
  match d.text? id with
  | some s => Text.allBlank s.toList
  | none => false

/-- What is removed with a placeholder: its paragraph when nothing but blanks would be left in it,
else the placeholder alone. -/
def removalRoot (id : NodeId) : NodeId :=
  let block := d.blockOf id
  if block = id ∨ d.isAttached block = false then id
  else if ((d.children block).filter (· ≠ id)).all d.isBlankText then block
  else id

def deletePlaceholder (id : NodeId) : Except DocumentError Document := d.detach (d.removalRoot id)

/-- Writes other commands into a placeholder. -/
def setPlaceholder (delimiters : Delimiters) (id : NodeId) (cs : Commands) : Except DocumentError Document :=
  d.setText id (delimiters.marker cs)

def createPlaceholder (delimiters : Delimiters) (cs : Commands) : NodeId × Document :=
  d.createText (delimiters.marker cs)

def insertImage (id : NodeId) (image : Image) : Except DocumentError (NodeId × Document) :=
  match d.parent? id with
  | none => .error (.detached id)
  | some _ => do
    let (element, e) := d.createElement imageTag
    let e := e.setAttr element "name" image.name
    let e := e.setAttr element "src" image.source
    let e := e.setAttr element "width" (String.ofList (Decimal.natText image.width))
    let e := e.setAttr element "height" (String.ofList (Decimal.natText image.height))
    let e ← e.replace id element
    .ok (element, e)

end Document

/-- How a run deals with placeholders: the delimiters of its markers, and the search, which is told
how many searches the run has begun. -/
structure Toolkit where
  delimiters : Delimiters
  search : Nat → Document → NodeId → Search

def Toolkit.ofDelimiters (delimiters : Delimiters) : Toolkit :=
  ⟨delimiters, fun _ d id ↦ d.search delimiters id⟩

end Stencil
