/-!
Patterns of text. A pattern is matched on places of a text: what it can take away from each of some
places gives the places behind it. Text holds a match when some place has one.
-/

namespace Stencil

/-- A place in a text: the character before it and the text behind it. -/
structure Spot where
  before? : Option Char
  rest : List Char
  deriving DecidableEq, Repr

inductive Anchor where
  | textStart
  | textEnd
  | lineStart
  | lineEnd
  | returnLineStart
  | returnLineEnd
  | wordBoundary
  | noWordBoundary
  | wordStart
  | wordEnd
  | wordStartHalf
  | wordEndHalf
  deriving DecidableEq, Repr

/-- A pattern. Sets of characters are given by what they hold; `word` is the set of characters that
belong to words. -/
inductive Pattern where
  | empty
  | one (set : Char → Bool)
  | at (a : Anchor) (word : Char → Bool)
  | seq (p q : Pattern)
  | alt (p q : Pattern)
  | times (p : Pattern) (least : Nat) (most : Option Nat)

/-- Whether an anchor holds at a place, where `word` is the set of characters of words. -/
def Anchor.holds (a : Anchor) (word : Char → Bool) (s : Spot) : Bool :=
  let next? := s.rest.head?
  let before := s.before?.any word
  let behind := next?.any word
  match a with
  | textStart => s.before?.isNone
  | textEnd => next?.isNone
  | lineStart => s.before?.isNone || s.before? == some '\n'
  | lineEnd => next?.isNone || next? == some '\n'
  | returnLineStart =>
    s.before?.isNone || s.before? == some '\n' || (s.before? == some '\r' && next? != some '\n')
  | returnLineEnd =>
    next?.isNone || next? == some '\r' || (next? == some '\n' && s.before? != some '\r')
  | wordBoundary => before != behind
  | noWordBoundary => before == behind
  | wordStart => !before && behind
  | wordEnd => before && !behind
  | wordStartHalf => !before
  | wordEndHalf => !behind

namespace Spot

/-- The place behind the next character, when a set holds it. -/
def advance? (set : Char → Bool) (s : Spot) : Option Spot :=
  match s.rest with
  | c :: r => if set c then some ⟨some c, r⟩ else none
  | [] => none

/-- Places of one text are told apart by what is behind them. -/
def same (s t : Spot) : Bool := s.rest.length == t.rest.length

def insert (s : Spot) (spots : List Spot) : List Spot :=
  if spots.any s.same then spots else s :: spots

def union (spots others : List Spot) : List Spot := spots.foldr insert others

def all : Option Char → List Char → List Spot
  | before?, [] => [⟨before?, []⟩]
  | before?, c :: r => ⟨before?, c :: r⟩ :: all (some c) r

end Spot

namespace Pattern

def iterate (f : List Spot → List Spot) : Nat → List Spot → List Spot
  | 0, spots => spots
  | n + 1, spots => iterate f n (f spots)

/-- The places that at most a number of steps lead to. -/
def reach (f : List Spot → List Spot) : Nat → List Spot → List Spot
  | 0, spots => spots
  | n + 1, spots => reach f n (Spot.union spots (f spots))

/-- A number of steps after which no place is new: one for each place of the text. -/
def enough (spots : List Spot) : Nat := spots.foldl (fun n s ↦ max n (s.rest.length + 1)) 0

/-- The places behind what a pattern takes away from places. -/
def run : Pattern → List Spot → List Spot
  | empty, spots => spots
  | one set, spots => spots.filterMap (Spot.advance? set)
  | .at a word, spots => spots.filter (a.holds word)
  | seq p q, spots => run q (run p spots)
  | alt p q, spots => Spot.union (run p spots) (run q spots)
  | times p least most, spots =>
    let start := iterate (run p) least spots
    let count := match most with
      | some m => min (m - least) (enough start)
      | none => enough start
    reach (run p) count start

def matchesIn (p : Pattern) (text : String) : Bool := !(p.run (Spot.all none text.toList)).isEmpty

end Pattern

end Stencil
