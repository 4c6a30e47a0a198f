import Stencil.Power
import Stencil.Data.Datum
import Stencil.Text.Blank
import Stencil.Text.Offset
/-!
Data paths: steps through the data tree. Names and indices go down, `<` goes up, `^` goes to the
root, `.` back to where the path began, and a variable starts over at what it is bound to.

A written path is read from its tokens; a path is written so that reading gives it back.
-/

namespace Stencil

inductive Step where
  | name (s : String)
  | index (n : Nat)
  | variableName (s : String)
  | parent
  | root
  | current
  deriving DecidableEq, Repr

structure Path where
  steps : List Step
  deriving DecidableEq, Repr

inductive PathCause where
  | unexpectedCharacter
  | emptySegment
  | missingDot
  | indexAfterDot
  | variableInside
  | trailingDot
  | noVariable
  deriving DecidableEq, Repr

def PathCause.message : PathCause → String
  | unexpectedCharacter => "unexpected character"
  | emptySegment => "empty path segment"
  | missingDot => "expected '.' before name"
  | indexAfterDot => "index cannot follow '.'"
  | variableInside => "variables may only start a path"
  | trailingDot => "trailing '.'"
  | noVariable => "expected a variable name"

inductive PathError where
  | invalid (text : String) (position : Nat) (cause : PathCause)
  | invalidName (name : String)
  | variableNotAllowed (path : String)
  deriving DecidableEq, Repr

def PathError.message : PathError → String
  | invalid text position cause =>
    "Invalid data path '" ++ text ++ "' at " ++ toString position ++ ": " ++ cause.message
  | invalidName name => "Invalid variable name '" ++ name ++ "'"
  | variableNotAllowed path => "Variable reference is not allowed in '" ++ path ++ "'"

namespace Path

/-- The blanks that may stand between the tokens of a path. -/
def isGap (c : Char) : Bool := c == ' ' || c == '\t' || c == '\r' || c == '\n'

def isNameChar (c : Char) : Bool :=
  !(c == '.' || c == '[' || c == ']' || c == '<' || c == '^' || c == '$' || isGap c)

inductive Token where
  | dot
  | parent
  | root
  | index (n : Nat)
  | variableName (s : List Char)
  | name (s : List Char)
  | unknown
  deriving DecidableEq, Repr

def maxIndex : Nat := maxWord

def digitsValue (ds : List Char) : Nat := ds.foldl (fun n c ↦ n * 10 + (c.toNat - 48)) 0

/-- The token that begins with a character, and the text behind it. -/
def nextToken (c : Char) (s : List Char) : Token × List Char :=
  if c = '.' then (.dot, s)
  else if c = '<' then (.parent, s)
  else if c = '^' then (.root, s)
  else if c = '[' then
    match s.takeWhile Char.isDigit, s.dropWhile Char.isDigit with
    | d :: ds, ']' :: r =>
      let n := digitsValue (d :: ds)
      if n ≤ maxIndex then (.index n, r) else (.unknown, r)
    | _, _ => (.unknown, s)
  else if c = '$' then
    match s.takeWhile isNameChar with
    | [] => (.unknown, s)
    | d :: ds => (.variableName (d :: ds), s.dropWhile isNameChar)
  else if isNameChar c then (.name (c :: s.takeWhile isNameChar), s.dropWhile isNameChar)
  else (.unknown, s)

/-- The tokens of a text with the positions they start at. The first argument bounds their number,
the second is the position of the text. -/
def tokensFrom : Nat → Nat → List Char → List (Nat × Token)
  | 0, _, _ => []
  | _ + 1, _, [] => []
  | n + 1, i, c :: s =>
    if isGap c then tokensFrom n (i + c.utf8Size) s
    else
      let (t, r) := nextToken c s
      (i, t) :: tokensFrom n (i + Text.width (c :: s) - Text.width r) r

def tokens (s : List Char) : List (Nat × Token) := tokensFrom s.length 0 s

/-- What the tokens before have left open: whether a name needs a dot in front, and whether a dot
waits for a name. -/
structure Link where
  needsDot : Bool
  pendingDot : Bool
  deriving DecidableEq, Repr

/-- Reads steps off tokens. `steps` are those read so far, the last one first. -/
def assemble (fail : Nat → PathCause → PathError) (size : Nat) :
    List Step → Link → List (Nat × Token) → Except PathError Path
  | steps, link, [] =>
    if link.pendingDot && !steps.isEmpty then .error (fail size .trailingDot)
    else .ok ⟨steps.reverse⟩
  | steps, link, (i, t) :: ts => match t with
    | .unknown => .error (fail i .unexpectedCharacter)
    | .dot =>
      if link.pendingDot then .error (fail i .emptySegment)
      else assemble fail size steps ⟨false, true⟩ ts
    | .name s =>
      if link.needsDot then .error (fail i .missingDot)
      else assemble fail size (.name (String.ofList s) :: steps) ⟨true, false⟩ ts
    | .index n =>
      if link.pendingDot then .error (fail i .indexAfterDot)
      else assemble fail size (.index n :: steps) ⟨true, false⟩ ts
    | .variableName s =>
      if !steps.isEmpty then .error (fail i .variableInside)
      else assemble fail size (.variableName (String.ofList s) :: steps) ⟨true, false⟩ ts
    | .parent => assemble fail size (.parent :: steps) ⟨false, false⟩ ts
    | .root => assemble fail size (.root :: steps) ⟨false, false⟩ ts

/-- Reads a path. Blanks around it do not count, and a dot alone is where the path begins. -/
def parse (text : String) : Except PathError Path :=
  let s := Text.trim text.toList
  if s = ['.'] then .ok ⟨[.current]⟩
  else assemble (.invalid text) (Text.width s) [] ⟨false, false⟩ (tokens s)

/-- Reads a path that starts with a variable, whose mark may be left out. -/
def parseVariable (text : String) : Except PathError Path :=
  let s := String.ofList (Text.trim text.toList)
  match s.toList with
  | '$' :: _ => parse s
  | _ => do
    let p ← parse s
    match p.steps with
    | .name n :: rest => .ok ⟨.variableName n :: rest⟩
    | _ => .error (.invalid text 0 .noVariable)

/-- A step as it is written; a name behind a named step has a dot in front. -/
def writeStep (afterNamed : Bool) : Step → List Char
  | .name s => if afterNamed then '.' :: s.toList else s.toList
  | .index n => '[' :: Decimal.natText n ++ [']']
  | .variableName s => '$' :: s.toList
  | .parent => ['<']
  | .root => ['^']
  | .current => ['.']

/-- Whether a name behind a step needs a dot. -/
def isNamed : Step → Bool
  | .name _ => true
  | .index _ => true
  | .variableName _ => true
  | _ => false

def writeSteps (afterNamed : Bool) : List Step → List Char
  | [] => []
  | s :: ss => writeStep afterNamed s ++ writeSteps (isNamed s) ss

def display (p : Path) : String := String.ofList (writeSteps false p.steps)

def isEmpty (p : Path) : Bool := p.steps.isEmpty

def isVariable : Step → Bool
  | .variableName _ => true
  | _ => false

def hasVariable (p : Path) : Bool := p.steps.any isVariable

def push (p : Path) (s : Step) : Path := ⟨p.steps ++ [s]⟩

def join (p q : Path) : Path := ⟨p.steps ++ q.steps⟩

/-- One step of collapsing; the steps so far stand last first. A variable cannot be collapsed. -/
def collapse : List Step → Step → Option (List Step)
  | done, .name s => some (.name s :: done)
  | done, .index n => some (.index n :: done)
  | done, .parent => some done.tail
  | _, .root => some []
  | done, .current => some done
  | _, .variableName _ => none

def collapseAll : List Step → List Step → Option (List Step)
  | done, [] => some done
  | done, s :: ss => (collapse done s).bind fun d ↦ collapseAll d ss

/-- The path of names and indices that a path without variables amounts to. -/
def normalize (p : Path) : Except PathError Path :=
  match collapseAll [] p.steps with
  | some done => .ok ⟨done.reverse⟩
  | none => .error (.variableNotAllowed p.display)

end Path

end Stencil
