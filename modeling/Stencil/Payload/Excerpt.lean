import Stencil.Payload.Reader
/-!
Where errors stand in a source text, for readers of the text: a headline, and a line and a column,
both counted from one. A carriage return and a line feed together end one line.
-/

namespace Stencil.Payload

def isLineEnd (c : Char) : Bool :=
  c == '\n' || c == '\r' || c == '\x0b' || c == '\x0c' || c == '\u0085' || c == '\u2028' || c == '\u2029'

/-- Whether a line begins behind a character, given the text behind it. The end of the text begins
no line. -/
def startsLine (c : Char) : List Char → Bool
  | [] => false
  | d :: _ => isLineEnd c && !(c == '\r' && d == '\n')

def placeFrom : Nat → Nat → Nat → List Char → Nat × Nat
  | line, column, 0, _ => (line, column)
  | line, column, _, [] => (line, column)
  | line, column, n + 1, c :: s =>
    if startsLine c s then placeFrom (line + 1) 1 n s else placeFrom line (column + 1) n s

namespace Error

/-- Where an error is shown to begin: an empty span is shown at the last character at most. -/
def shownStart (e : Error) (s : List Char) : Nat :=
  let span := e.span
  if span.start < span.stop then span.start else min span.start (Text.width s - 1)

/-- The line and the column of an error, if the text reaches as far. -/
def place? (e : Error) (s : List Char) : Option (Nat × Nat) :=
  let start := e.shownStart s
  if s.isEmpty ∨ s.length < start then none else some (placeFrom 1 1 start s)

def headline (e : Error) : String := "Error: " ++ e.message

def placeText? (e : Error) (name : String) (s : List Char) : Option String :=
  (e.place? s).map fun p ↦ name ++ ":" ++ toString p.1 ++ ":" ++ toString p.2

end Error

end Stencil.Payload
