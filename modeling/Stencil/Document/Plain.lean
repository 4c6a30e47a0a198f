import Stencil.Document.Edit
import Stencil.Text.Offset
/-!
Plain text as a document: a root with one paragraph a line, each paragraph with one text. Writing
gives one line for each child of the root, an image as its name and size in brackets.
-/

namespace Stencil.Document

def rootTag : String := "doc"

def paragraphTag : String := "p"

def imageTag : String := "img"

/-- A document with a paragraph more, which holds one text. -/
def addParagraph (d : Document) (line : List Char) : Document :=
  let (paragraph, d) := d.createElement paragraphTag
  let (run, d) := d.createText (String.ofList line)
  (d.appendNew paragraph run).appendNew d.root paragraph

def ofText (serial : Nat) (text : String) : Document :=
  (Text.lines text.toList).foldl addParagraph (ofRoot serial (.element rootTag []))

variable (d : Document)

def imageText (attrs : Entries String) : String :=
  "[image " ++ (attrs.get? "name").getD "" ++ " " ++ (attrs.get? "width").getD "0" ++ "x" ++
    (attrs.get? "height").getD "0" ++ "]"

/-- What a node is written as within its line, `n` levels deep. -/
def inlineText : Nat → NodeId → String
  | n, id => match d.node? id with
    | none => ""
    | some ⟨.text s, _, _⟩ => s
    | some ⟨.element tag attrs, _, children⟩ =>
      if tag = imageTag then imageText attrs
      else match n with
        | 0 => ""
        | n + 1 => String.join (children.map (inlineText n))

def textLines : List String := (d.children d.root).map (d.inlineText d.size)

def toText : String := "\n".intercalate d.textLines

def paragraphs : List NodeId :=
  (d.descendants d.root).filter fun id ↦ d.tag? id == some paragraphTag

end Stencil.Document
