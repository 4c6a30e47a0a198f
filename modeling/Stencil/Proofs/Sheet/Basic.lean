import Stencil.Command.Fragment
import Stencil.Proofs.Document.Placeholder
import Stencil.Proofs.Sheet.Reach
/-!
Sheets: a document of lines as a scan sees it. What lies behind the scan is text for good; what lies
ahead of it are pieces, and no edit depends on how these share the nodes of the document.
-/

namespace Stencil

def Content.shown : Content → String
  | text s => s
  | image attrs => Document.imageText attrs

def Content.line (cs : List Content) : String := String.join (cs.map shown)

namespace Piece

variable (t : Delimiters)

def content : Piece → Content
  | words s => .text (String.ofList s)
  | marker p => .text (String.ofList (t.enclose p))
  | image attrs => .image attrs

/-- Whether a piece is a text of nothing but blanks. -/
def isBlank (q : Piece) : Bool := (q.content t).isBlank

def line (l : Line) : String := Content.line (l.map (content t))

/-- What is left of a line with the pieces that are left: nothing, when they are blank. -/
def kept (l : Line) : List Line := if l.all (isBlank t) then [] else [l]

end Piece

/-- The lines that stretches of a line make: none for an empty one. -/
def Sheet.part {α : Type} (l : List α) : List (List α) := if l.isEmpty then [] else [l]

/-- Where a scan has come to: within a line, between two, or at its end. -/
inductive Sheet where
  | within (above : List String) (left : List Content) (right : Line) (below : List Line)
  | between (above : List String) (below : List Line)
  | halted (lines : List String)

/-- A marker that the scan has met, with what is around it. -/
structure Gap where
  above : List String
  left : List Content
  payload : List Char
  right : Line
  below : List Line

namespace Sheet

variable (t : Delimiters)

def lines : Sheet → List String
  | within above left right below =>
    above ++ Content.line (left ++ right.map (Piece.content t)) :: below.map (Piece.line t)
  | between above below => above ++ below.map (Piece.line t)
  | halted lines => lines

def findBelow? (above : List String) : List Line → Option Gap
  | [] => none
  | l :: ls => match Piece.breakMarker? l with
    | some (front, p, back) => some ⟨above, front.map (Piece.content t), p, back, ls⟩
    | none => findBelow? (above ++ [Piece.line t l]) ls

def find? : Sheet → Option Gap
  | within above left right below => match Piece.breakMarker? right with
    | some (front, p, back) => some ⟨above, left ++ front.map (Piece.content t), p, back, below⟩
    | none => findBelow? t (above ++ [Content.line (left ++ right.map (Piece.content t))]) below
  | between above below => findBelow? t above below
  | halted _ => none

theorem find?_within {front : Line} (h : ∀ q ∈ front, q.isMarker = false) (above : List String) (left : List Content) (p : List Char) (back : Line)
    (below : List Line) : (within above left (front ++ .marker p :: back) below).find? t =
      some ⟨above, left ++ front.map (Piece.content t), p, back, below⟩ := by
  simp only [find?, Piece.breakMarker?_append h]

end Sheet

/-- What a command without a block does at its marker. -/
inductive Deed where
  | leave
  | consume
  | write (s : String)
  | remove
  | insert (image : Image)
  | merge (text : String) (bounds : FragmentBounds)

def Deed.merges : Deed → Bool
  | merge _ _ => true
  | _ => false

/-- The texts of the blocks to merge, of blocks with these texts. -/
def FragmentBounds.chosen (b : FragmentBounds) (texts : List String) : List String :=
  (b.choose (texts.map fun s ↦ (s, ⟨0, 0⟩))).map Prod.fst

/-- The lines that a text brings in where it is merged. -/
def FragmentBounds.lines (t : Delimiters) (b : FragmentBounds) (text : String) : List Line :=
  (b.chosen ((Text.lines text.toList).map String.ofList)).map fun s ↦ t.pieces s.toList

/-- What comes of a command at a marker: the marker is left alone, or is still to be removed, or the
scan has moved on. -/
inductive Upshot where
  | ignored
  | consumed
  | moved (sheet : Sheet)

namespace Gap

variable (t : Delimiters) (g : Gap)

def marker : String := String.ofList (t.enclose g.payload)

/-- The scan goes on behind what stands in the marker's place. -/
def passed (c : Content) : Sheet := .within g.above (g.left ++ [c]) g.right g.below

def kept : Sheet := g.passed (.text (g.marker t))

/-- The marker goes, with its line when nothing but blanks would be left in it. -/
def removed : Sheet :=
  if g.left.all Content.isBlank && g.right.all (Piece.isBlank t) then .between g.above g.below
  else .within g.above g.left g.right g.below

/-- Lines come in front of the marker's own, and the marker goes; the scan goes on at the first of them,
and comes back to what stands before the marker. Where there are none it goes on behind the marker. -/
def merged (lines : List Line) : Sheet :=
  if lines.isEmpty then g.removed t
  else .between g.above (lines ++ (Piece.kept t (g.left.flatMap (Content.pieces t) ++ g.right) ++ g.below))

def perform : Deed → Upshot
  | .leave => .ignored
  | .consume => .consumed
  | .write s => .moved (g.passed (.text s))
  | .remove => .moved (g.removed t)
  | .insert image => .moved (g.passed (.image image.attrs))
  | .merge text bounds => .moved (g.merged t (bounds.lines t text))

/-- Both markers of a block go, and what they enclose stays. -/
def opened : Reach → Sheet
  | .here mid rest => { g with right := mid ++ rest }.removed t
  | .there first mid front rest below =>
    { g with right := first, below := mid ++ (Piece.kept t (front ++ rest) ++ below) }.removed t

/-- Copies take the place of a block. Its markers become those given for each. -/
def replicated (g : Gap) (markers : List (Line × Line)) : Reach → Sheet
  | .here mid rest => .within g.above g.left (markers.flatMap (fun m ↦ m.1 ++ (mid ++ m.2)) ++ rest) g.below
  | .there first mid front rest below =>
    .between (g.above ++ (Sheet.part g.left).map Content.line)
      (markers.flatMap (fun m ↦ (m.1 ++ first) :: (mid ++ [front ++ m.2])) ++ (Sheet.part rest ++ below))

/-- Both markers of a region go, and the scan goes on behind it. When the region is all of a line but
blanks, and blanks follow it there, the line is gone before the scan could go on in it. -/
def skipped : Option Reach → Sheet
  | none => .halted ((g.removed t).lines t)
  | some (.here mid rest) =>
    let left := g.left ++ mid.map (Piece.content t)
    if left.all Content.isBlank && rest.all (Piece.isBlank t) then
      if rest.isEmpty then .between g.above g.below else .halted (g.above ++ g.below.map (Piece.line t))
    else .within g.above left rest g.below
  | some (.there first mid front rest below) =>
    let opener := g.left ++ first.map (Piece.content t)
    let above := g.above ++ (if opener.all Content.isBlank then [] else [Content.line opener]) ++ mid.map (Piece.line t)
    if front.all (Piece.isBlank t) && rest.all (Piece.isBlank t) then .between above below
    else .within above (front.map (Piece.content t)) rest below

end Gap

end Stencil
