import Stencil.Power
import Stencil.Pattern.Basic
import Stencil.Pattern.Property
import Stencil.Text.CaseFold
import Stencil.Text.Offset
/-!
Patterns as they are written: alternatives between bars, characters and sets of them, groups with
flags, anchors, and repetitions. Whatever is not understood is refused.
-/

namespace Stencil.Pattern

inductive Fault where
  | nothingToRepeat
  | invalidCount
  | unclosedCount
  | tooLarge
  | unclosedGroup
  | unopenedGroup
  | invalidGroupName
  | repeatedGroupName
  | invalidFlag
  | lookAround
  | unclosedClass
  | invalidClassRange
  | invalidEscape
  | unknownProperty
  | beyondAscii
  deriving DecidableEq, Repr

def Fault.message : Fault → String
  | nothingToRepeat => "repetition operator missing expression"
  | invalidCount => "invalid repetition count range"
  | unclosedCount => "unclosed counted repetition"
  | tooLarge => "pattern is too large"
  | unclosedGroup => "unclosed group"
  | unopenedGroup => "unopened group"
  | invalidGroupName => "invalid capture group name"
  | repeatedGroupName => "duplicate capture group name"
  | invalidFlag => "unrecognized flag"
  | lookAround => "look-around is not supported"
  | unclosedClass => "unclosed character class"
  | invalidClassRange => "invalid character class range"
  | invalidEscape => "unrecognized escape sequence"
  | unknownProperty => "unknown character property"
  | beyondAscii => "only ASCII characters are allowed here"

/-- What holds for the text of a pattern from a place on. -/
structure Flags where
  caseless : Bool
  multiline : Bool
  dotAll : Bool
  spaced : Bool
  returns : Bool
  ascii : Bool
  deriving DecidableEq, Repr

def Flags.none : Flags := ⟨false, false, false, false, false, false⟩

/-- The characters that are not told apart from a character, itself among them. -/
def Flags.variants (f : Flags) (c : Char) : List Char :=
  let isAscii (c : Char) : Bool := decide (c.toNat < 128)
  if f.caseless = false then [c]
  else if f.ascii = false then Text.caseVariants c
  else if isAscii c then (Text.caseVariants c).filter isAscii
  else [c]

/-- A set of characters under flags: with case left aside, a character is in it when a variant is. -/
def folded (f : Flags) (set : Char → Bool) : Char → Bool := fun c ↦ (f.variants c).any set

def complementIf (negated : Bool) (set : Char → Bool) : Char → Bool := fun c ↦ set c != negated

/-- A set that may stand under flags: where only ASCII counts, it has to keep to it. The sets there
treat all other characters alike. -/
def confine (f : Flags) (set : Char → Bool) : Except Fault (Char → Bool) :=
  if f.ascii && set (Char.ofNat 128) then .error .beyondAscii else .ok set

def between (low high c : Char) : Bool := decide (low.toNat ≤ c.toNat) && decide (c.toNat ≤ high.toNat)

def Flags.word (f : Flags) : Char → Bool :=
  if f.ascii then fun c ↦ c.isAlphanum || c == '_' else Text.isWord

/-- The digits, blanks and word characters of a class letter. -/
def letterClass? (f : Flags) (c : Char) : Option (Char → Bool) :=
  let digit : Char → Bool := if f.ascii then Char.isDigit else Text.isDecimalDigit
  let blank : Char → Bool := if f.ascii then fun c ↦ c == ' ' || between '\t' '\r' c else Text.isBlank
  match c with
  | 'd' => some digit
  | 'D' => some fun c ↦ !digit c
  | 's' => some blank
  | 'S' => some fun c ↦ !blank c
  | 'w' => some f.word
  | 'W' => some fun c ↦ !f.word c
  | _ => Option.none

def namedClass? (name : List Char) : Option (Char → Bool) :=
  match String.ofList name with
  | "alnum" => some Char.isAlphanum
  | "alpha" => some Char.isAlpha
  | "ascii" => some fun c ↦ decide (c.toNat < 128)
  | "blank" => some fun c ↦ c == ' ' || c == '\t'
  | "cntrl" => some fun c ↦ decide (c.toNat < 32) || c.toNat == 127
  | "digit" => some Char.isDigit
  | "graph" => some (between '!' '~')
  | "lower" => some Char.isLower
  | "print" => some (between ' ' '~')
  | "punct" => some fun c ↦ between '!' '~' c && !c.isAlphanum
  | "space" => some fun c ↦ c == ' ' || between '\t' '\r' c
  | "upper" => some Char.isUpper
  | "word" => some fun c ↦ c.isAlphanum || c == '_'
  | "xdigit" => some isHexDigit
  | _ => Option.none

def hexDigit? (c : Char) : Option Nat :=
  if c.isDigit then some (c.toNat - 48)
  else if between 'a' 'f' c then some (c.toNat - 87)
  else if between 'A' 'F' c then some (c.toNat - 55)
  else Option.none

def hexNumber? : Nat → List Char → Option Nat
  | n, [] => some n
  | n, c :: cs => (hexDigit? c).bind fun d ↦ hexNumber? (n * 16 + d) cs

def charOf? (n : Nat) : Option Char := if n.isValidChar then some (Char.ofNat n) else Option.none

/-- A character given by its number: some digits, or any number of them between braces. -/
def readHex (digits : Nat) (s : List Char) : Except Fault (Char × List Char) :=
  let (ds, r) : List Char × Option (List Char) := match s with
    | '\x7b' :: r =>
      (r.takeWhile (· != '\x7d'), match r.dropWhile (· != '\x7d') with
        | _ :: r => some r
        | [] => Option.none)
    | s => (s.take digits, if s.length < digits then Option.none else some (s.drop digits))
  match ds.isEmpty, (hexNumber? 0 ds).bind charOf?, r with
  | false, some c, some r => .ok (c, r)
  | _, _, _ => .error .invalidEscape

inductive Escape where
  | char (c : Char)
  | set (s : Char → Bool)
  | anchor (a : Anchor)

/-- The anchors of words that have names, as they stand behind the letter of the boundary. -/
def namedAnchors : List (String × Anchor) :=
  [("\x7bstart\x7d", .wordStart), ("\x7bend\x7d", .wordEnd),
    ("\x7bstart-half\x7d", .wordStartHalf), ("\x7bend-half\x7d", .wordEndHalf)]

/-- The anchor behind the letter of the boundary: one with a name, or the boundary itself. -/
def boundary (s : List Char) : Anchor × List Char :=
  (namedAnchors.findSome? fun p ↦ (Text.stripPrefix? p.1.toList s).map fun r ↦ (p.2, r)).getD
    (.wordBoundary, s)

/-- The set of a property behind its letter: the name is one letter or stands between braces. -/
def readProperty (f : Flags) (negated : Bool) (s : List Char) :
    Except Fault ((Char → Bool) × List Char) :=
  let (set?, r) : Option (Char → Bool) × List Char := match s with
    | '\x7b' :: r => match r.dropWhile (· != '\x7d') with
      | [] => (Option.none, [])
      | _ :: behind => (describedSet? (r.takeWhile (· != '\x7d')), behind)
    | c :: r => (property? [c], r)
    | [] => (Option.none, [])
  match set? with
  | some set => if f.ascii then .error .beyondAscii else .ok (complementIf negated (folded f set), r)
  | Option.none => .error .unknownProperty

/-- A character by its two digits, or by those between braces. Where only ASCII counts the two digits
may not lead out of it. -/
def readHexPair (f : Flags) (s : List Char) : Except Fault (Char × List Char) := do
  let (c, r) ← readHex 2 s
  if f.ascii && decide (128 ≤ c.toNat) && s.head? != some '\x7b' then .error .beyondAscii
  else .ok (c, r)

def readEscape (f : Flags) : List Char → Except Fault (Escape × List Char)
  | [] => .error .invalidEscape
  | c :: s => match letterClass? f c with
    | some set => (confine f set).map fun set ↦ (.set set, s)
    | Option.none => match c with
      | 'a' => .ok (.char (Char.ofNat 7), s)
      | 'f' => .ok (.char (Char.ofNat 12), s)
      | 't' => .ok (.char '\t', s)
      | 'n' => .ok (.char '\n', s)
      | 'r' => .ok (.char '\r', s)
      | 'v' => .ok (.char (Char.ofNat 11), s)
      | 'x' => (readHexPair f s).map fun p ↦ (.char p.1, p.2)
      | 'u' => (readHex 4 s).map fun p ↦ (.char p.1, p.2)
      | 'U' => (readHex 8 s).map fun p ↦ (.char p.1, p.2)
      | 'p' => (readProperty f false s).map fun p ↦ (.set p.1, p.2)
      | 'P' => (readProperty f true s).map fun p ↦ (.set p.1, p.2)
      | 'A' => .ok (.anchor .textStart, s)
      | 'z' => .ok (.anchor .textEnd, s)
      | 'b' =>
        let (a, r) := boundary s
        .ok (.anchor a, r)
      | 'B' => .ok (.anchor .noWordBoundary, s)
      | '<' => .ok (.anchor .wordStart, s)
      | '>' => .ok (.anchor .wordEnd, s)
      | c => if c.toNat < 128 && !c.isAlphanum then .ok (.char c, s) else .error .invalidEscape

/-- A single character of a class, or a set of them. -/
def readClassAtom (f : Flags) (s : List Char) :
    Except Fault ((Char ⊕ (Char → Bool)) × List Char) :=
  let single (c : Char) (r : List Char) : Except Fault ((Char ⊕ (Char → Bool)) × List Char) :=
    if f.ascii && decide (128 ≤ c.toNat) then .error .beyondAscii else .ok (.inl c, r)
  match s with
  | [] => .error .unclosedClass
  | '\\' :: s => match readEscape f s with
    | .ok (.char c, r) => single c r
    | .ok (.set t, r) => .ok (.inr t, r)
    | .ok (.anchor _, _) => .error .invalidEscape
    | .error e => .error e
  | c :: s => single c s

/-- Whether a character stands for itself, also with case left aside. -/
def single (f : Flags) (c : Char) : Char → Bool := folded f (· == c)

def readClassRange (f : Flags) (s : List Char) : Except Fault ((Char → Bool) × List Char) := do
  let (first, r) ← readClassAtom f s
  let alone : Except Fault ((Char → Bool) × List Char) := match first with
    | .inl c => .ok (single f c, r)
    | .inr t => .ok (t, r)
  match r with
  | '-' :: ']' :: _ => alone
  | '-' :: '-' :: _ => alone
  | '-' :: [] => .error .unclosedClass
  | '-' :: r =>
    let (last, r) ← readClassAtom f r
    match first, last with
    | .inl a, .inl b =>
      if a.toNat ≤ b.toNat then .ok (folded f (between a b), r) else .error .invalidClassRange
    | _, _ => .error .invalidClassRange
  | _ => alone

/-- A class by its name between colons, if text begins with one. -/
def readNamedClass? (f : Flags) (s : List Char) :
    Option (Except Fault ((Char → Bool) × List Char)) :=
  match s with
  | '[' :: ':' :: r =>
    let (negated, r) := match r with
      | '^' :: r => (true, r)
      | r => (false, r)
    let name := r.takeWhile Char.isAlpha
    match r.dropWhile Char.isAlpha with
    | ':' :: ']' :: r =>
      (namedClass? name).map fun set ↦
        (confine f (complementIf negated (folded f set))).map fun set ↦ (set, r)
    | _ => Option.none
  | _ => Option.none

inductive Join where
  | both
  | without
  | either
  deriving DecidableEq, Repr

def readJoin? : List Char → Option (Join × List Char)
  | '&' :: '&' :: r => some (.both, r)
  | '-' :: '-' :: r => some (.without, r)
  | '~' :: '~' :: r => some (.either, r)
  | _ => Option.none

def Join.apply (j : Join) (s t : Char → Bool) : Char → Bool :=
  match j with
  | both => fun c ↦ s c && t c
  | without => fun c ↦ s c && !t c
  | either => fun c ↦ s c != t c

/-- Sets that wait for what they are joined with. -/
def Join.finish : Option ((Char → Bool) × Join) → (Char → Bool) → (Char → Bool)
  | Option.none, t => t
  | some (s, j), t => j.apply s t

/-- The beginning of a class: a caret, and what stands for itself at this place only. -/
def classStart (f : Flags) (s : List Char) : Bool × (Char → Bool) × List Char :=
  let (negated, r) := match s with
    | '^' :: r => (true, r)
    | r => (false, r)
  let dashes := r.takeWhile (· == '-')
  let r := r.dropWhile (· == '-')
  match dashes, r with
  | [], ']' :: r => (negated, single f ']', r)
  | [], r => (negated, fun _ ↦ false, r)
  | _ :: _, r => (negated, single f '-', r)

/-- What follows blanks and remarks, where the flags let them stand between the parts. -/
def skipSpaced (f : Flags) : Nat → List Char → List Char
  | 0, s => s
  | _ + 1, [] => []
  | n + 1, c :: s =>
    if f.spaced = false then c :: s
    else if Text.isBlank c then skipSpaced f n s
    else if c = '#' then skipSpaced f n (s.dropWhile (· != '\n'))
    else c :: s

/-- The inside of a class up to its bracket: `set` is what the present operand holds so far, and
`waiting` what it is joined with. -/
def readClass (f : Flags) : Nat → Option ((Char → Bool) × Join) → (Char → Bool) → List Char →
    Except Fault ((Char → Bool) × List Char)
  | 0, _, _, _ => .error .unclosedClass
  | n + 1, waiting, set, s =>
    match skipSpaced f s.length s with
    | [] => .error .unclosedClass
    | ']' :: r => .ok (Join.finish waiting set, r)
    | c :: r => match readJoin? (c :: r) with
      | some (j, r) => readClass f n (some (Join.finish waiting set, j)) (fun _ ↦ false) r
      | Option.none => match readNamedClass? f (c :: r) with
        | some answer => do
          let (t, r) ← answer
          readClass f n waiting (fun d ↦ set d || t d) r
        | Option.none =>
          if c = '[' then do
            let (negated, start, r) := classStart f r
            let (t, r) ← readClass f n Option.none start r
            let t ← confine f (complementIf negated t)
            readClass f n waiting (fun d ↦ set d || t d) r
          else do
            let (t, r) ← readClassRange f (c :: r)
            readClass f n waiting (fun d ↦ set d || t d) r

def readWholeClass (f : Flags) (s : List Char) : Except Fault ((Char → Bool) × List Char) := do
  let (negated, start, r) := classStart f s
  let (set, r) ← readClass f (s.length + 1) Option.none start r
  let set ← confine f (complementIf negated set)
  .ok (set, r)

def maxCount : Nat := twoTo 32 - 1

/-- A count of a repetition, with blanks around it. -/
def readCount (s : List Char) : Except Fault (Nat × List Char) :=
  let s := Text.trimStart s
  match s.takeWhile Char.isDigit with
  | [] => .error .invalidCount
  | ds =>
    let n := ds.foldl (fun n c ↦ n * 10 + (c.toNat - 48)) 0
    if maxCount < n then .error .invalidCount
    else .ok (n, Text.trimStart (s.dropWhile Char.isDigit))

def readCounts (s : List Char) : Except Fault ((Nat × Option Nat) × List Char) := do
  let (least, r) ← readCount s
  match r with
  | '\x7d' :: r => .ok ((least, some least), r)
  | ',' :: '\x7d' :: r => .ok ((least, Option.none), r)
  | ',' :: r =>
    let (most, r) ← readCount r
    match r with
    | '\x7d' :: r => if least ≤ most then .ok ((least, some most), r) else .error .invalidCount
    | _ => .error .unclosedCount
  | _ => .error .unclosedCount

/-- The repetition that text begins with, if it does. A question mark behind it makes no difference
to what has a match. -/
def readRepetition? : List Char → Option (Except Fault ((Nat × Option Nat) × List Char))
  | '*' :: r => some (.ok ((0, Option.none), r))
  | '+' :: r => some (.ok ((1, Option.none), r))
  | '?' :: r => some (.ok ((0, some 1), r))
  | '\x7b' :: r => some (readCounts r)
  | _ => Option.none

/-- Text without a question mark in front. -/
def skipLazy : List Char → List Char
  | '?' :: r => r
  | r => r

def Flags.set? (f : Flags) (on : Bool) : Char → Option Flags
  | 'i' => some { f with caseless := on }
  | 'm' => some { f with multiline := on }
  | 's' => some { f with dotAll := on }
  | 'x' => some { f with spaced := on }
  | 'R' => some { f with returns := on }
  | 'u' => some { f with ascii := !on }
  | 'U' => some f
  | _ => Option.none

/-- Flags up to the character that ends them. No flag may stand twice, and a minus sign must have
one behind it. -/
def readFlags : Flags → Bool → List Char → List Char → Except Fault (Flags × List Char)
  | _, _, _, [] => .error .unclosedGroup
  | f, on, seen, c :: s =>
    if c = ':' ∨ c = ')' then
      if on = false ∧ seen.head? = some '-' then .error .invalidFlag else .ok (f, c :: s)
    else if seen.contains c then .error .invalidFlag
    else if c = '-' then readFlags f false (c :: seen) s
    else match f.set? on c with
      | some g => readFlags g on (c :: seen) s
      | Option.none => .error .invalidFlag

def isNameStart (c : Char) : Bool := c == '_' || Text.isAlphabetic c

def isNameRest (c : Char) : Bool :=
  isNameStart c || Text.isOfAny [.decimalNumber, .letterNumber, .otherNumber] c ||
    c == '.' || c == '[' || c == ']'

/-- A name of a group, up to the bracket behind it. -/
def readName (s : List Char) : Except Fault (List Char × List Char) :=
  match s.takeWhile (· != '>'), s.dropWhile (· != '>') with
  | c :: cs, _ :: r =>
    if isNameStart c && cs.all isNameRest then .ok (c :: cs, r) else .error .invalidGroupName
  | _, _ => .error .invalidGroupName

inductive Opening where
  | group (f : Flags)
  | named (name : List Char)
  | flags (f : Flags)

def readOpening (f : Flags) : List Char → Except Fault (Opening × List Char)
  | '?' :: 'P' :: '<' :: r => (readName r).map fun p ↦ (.named p.1, p.2)
  | '?' :: '<' :: '=' :: _ => .error .lookAround
  | '?' :: '<' :: '!' :: _ => .error .lookAround
  | '?' :: '<' :: r => (readName r).map fun p ↦ (.named p.1, p.2)
  | '?' :: '=' :: _ => .error .lookAround
  | '?' :: '!' :: _ => .error .lookAround
  | '?' :: ')' :: _ => .error .nothingToRepeat
  | '?' :: r => do
    let (g, r) ← readFlags f true [] r
    match r with
    | ':' :: r => .ok (.group g, r)
    | _ => .ok (.flags g, r.drop 1)
  | r => .ok (.group f, r)

/-- What has been read of a group: its flags, the names of groups, the alternatives before the
present one, and the parts of that one, the last first. -/
structure Draft where
  flags : Flags
  names : List (List Char)
  before : Option Pattern
  parts : List Pattern
  repeatable : Bool

namespace Draft

def add (d : Draft) (p : Pattern) : Draft := { d with parts := p :: d.parts, repeatable := true }

def branch (d : Draft) : Pattern := d.parts.foldl (fun q p ↦ seq p q) empty

def pattern (d : Draft) : Pattern :=
  match d.before with
  | some p => alt p d.branch
  | Option.none => d.branch

/-- A draft with the next alternative begun. -/
def nextBranch (d : Draft) : Draft := { d with before := some d.pattern, parts := [], repeatable := false }

/-- The draft of a group of which nothing has been read. -/
def ofGroup (f : Flags) (names : List (List Char)) : Draft := ⟨f, names, Option.none, [], false⟩

end Draft

def Flags.caret (f : Flags) : Anchor :=
  if f.multiline then if f.returns then .returnLineStart else .lineStart else .textStart

def Flags.dollar (f : Flags) : Anchor :=
  if f.multiline then if f.returns then .returnLineEnd else .lineEnd else .textEnd

def Flags.dot (f : Flags) (c : Char) : Bool := f.dotAll || !(c == '\n' || (f.returns && c == '\r'))

def Escape.pattern (f : Flags) : Escape → Pattern
  | char c => one (single f c)
  | set s => one s
  | anchor a => .at a f.word

/-- A part that is no group. -/
def readPart (f : Flags) (c : Char) (s : List Char) : Except Fault (Pattern × List Char) :=
  match c with
  | '.' => (confine f f.dot).map fun set ↦ (one set, s)
  | '^' => .ok (.at f.caret f.word, s)
  | '$' => .ok (.at f.dollar f.word, s)
  | '[' => (readWholeClass f s).map fun p ↦ (one p.1, p.2)
  | '\\' => (readEscape f s).map fun p ↦ (p.1.pattern f, p.2)
  | c => .ok (one (single f c), s)

/-- The largest count that is carried out. -/
def countLimit : Nat := twoTo 20

def readBody : Nat → Draft → List Char → Except Fault (Draft × List Char)
  | 0, d, s => .ok (d, s)
  | n + 1, d, s => match skipSpaced d.flags s.length s with
    | [] => .ok (d, [])
    | ')' :: r => .ok (d, ')' :: r)
    | '|' :: r => readBody n d.nextBranch r
    | '(' :: r => do
      let (opening, r) ← readOpening d.flags r
      let group (f : Flags) (names : List (List Char)) : Except Fault (Draft × List Char) := do
        let (e, r) ← readBody n (Draft.ofGroup f names) r
        match r with
        | ')' :: r => readBody n { d.add e.pattern with names := e.names } r
        | _ => .error .unclosedGroup
      match opening with
      | .group f => group f d.names
      | .named name =>
        if d.names.contains name then .error .repeatedGroupName else group d.flags (name :: d.names)
      | .flags f => readBody n { d with flags := f, repeatable := false } r
    | c :: r => match readRepetition? (c :: r) with
      | some answer => match d.parts, d.repeatable with
        | p :: ps, true => do
          let ((least, most), r) ← answer
          if countLimit < least then .error .tooLarge
          else readBody n { d with parts := times p least most :: ps } (skipLazy r)
        | _, _ => .error .nothingToRepeat
      | Option.none => do
        let (p, r) ← readPart d.flags c r
        readBody n (d.add p) r

def parse (text : String) : Except Fault Pattern := do
  let s := text.toList
  let (d, r) ← readBody (s.length + 1) (Draft.ofGroup Flags.none []) s
  if r.isEmpty then .ok d.pattern else .error .unopenedGroup

end Stencil.Pattern
