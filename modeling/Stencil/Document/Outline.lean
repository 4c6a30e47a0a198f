import Stencil.Document.Edit
/-!
Trees as values, apart from any arena. A document is made of an outline, node by node in document
order, and what is below a node can be taken out as one.
-/

namespace Stencil

inductive Outline where
  | text (s : String)
  | element (tag : String) (attrs : List (String × String)) (children : List Outline)
  deriving Inhabited

namespace Document

/-- What an element of an outline holds; of two attributes of one name the later one counts. -/
def elementData (tag : String) (attrs : List (String × String)) : NodeData :=
  .element tag (Entries.ofPairs attrs)

mutual

/-- Plants an outline below a node, behind the children it has. -/
def plant (d : Document) (parent : NodeId) : Outline → Document
  | .text s =>
    let (id, d) := d.createText s
    d.appendNew parent id
  | .element tag attrs children =>
    let (id, d) := d.create (elementData tag attrs)
    plantAll (d.appendNew parent id) id children

def plantAll (d : Document) (parent : NodeId) : List Outline → Document
  | [] => d
  | o :: os => plantAll (plant d parent o) parent os

end

def ofOutline (serial : Nat) : Outline → Document
  | .text s => ofRoot serial (.text s)
  | .element tag attrs children =>
    let d := ofRoot serial (elementData tag attrs)
    d.plantAll d.root children

/-- What is in and below a node, `n` levels deep. -/
def outlineFrom (d : Document) : Nat → NodeId → Outline
  | n, id => match d.data? id, n with
    | none, _ => .text ""
    | some (.text s), _ => .text s
    | some (.element tag attrs), 0 => .element tag attrs []
    | some (.element tag attrs), n + 1 => .element tag attrs ((d.children id).map (outlineFrom d n))

def outline (d : Document) (id : NodeId) : Outline := d.outlineFrom d.size id

end Document

end Stencil
