import Stencil.Power
import Stencil.Json.Basic
import Stencil.Text.Offset
/-!
Reading data text. The reader is strict: no comments, no trailing commas, no leading zeros. What
it refuses it reports with the place, as a line and the count of bytes read on that line.

A number with a fraction or an exponent is read as the whole number of its digits, as far as they
fit into 64 bits, and then scaled by a power of ten; each of the steps rounds.
-/

namespace Stencil.Json

inductive Cause where
  | endOfValue
  | endOfString
  | endOfList
  | endOfObject
  | expectedValue
  | expectedIdent
  | expectedColon
  | expectedListEnd
  | expectedObjectEnd
  | keyNotString
  | trailingComma
  | trailingCharacters
  | invalidNumber
  | numberOutOfRange
  | invalidEscape
  | controlCharacter
  | loneSurrogate
  | shortSurrogate
  | tooDeep
  | custom (text : String)
  deriving DecidableEq, Repr

def Cause.message : Cause → String
  | endOfValue => "EOF while parsing a value"
  | endOfString => "EOF while parsing a string"
  | endOfList => "EOF while parsing a list"
  | endOfObject => "EOF while parsing an object"
  | expectedValue => "expected value"
  | expectedIdent => "expected ident"
  | expectedColon => "expected `:`"
  | expectedListEnd => "expected `,` or `]`"
  | expectedObjectEnd => "expected `,` or `\x7d`"
  | keyNotString => "key must be a string"
  | trailingComma => "trailing comma"
  | trailingCharacters => "trailing characters"
  | invalidNumber => "invalid number"
  | numberOutOfRange => "number out of range"
  | invalidEscape => "invalid escape"
  | controlCharacter => "control character (\\u0000-\\u001F) found while parsing a string"
  | loneSurrogate => "lone leading surrogate in hex escape"
  | shortSurrogate => "unexpected end of hex escape"
  | tooDeep => "recursion limit exceeded"
  | custom text => text

/-- A refusal: its cause, the text left when it was noticed, and how many bytes of that text it
has looked at. -/
structure Fault where
  cause : Cause
  rest : List Char
  ahead : Nat

def refuse {α : Type} (cause : Cause) (rest : List Char) : Except Fault (α × List Char) := .error ⟨cause, rest, 0⟩

def refuseNext {α : Type} (cause : Cause) (rest : List Char) : Except Fault (α × List Char) := .error ⟨cause, rest, 1⟩

/-- The blanks that may stand between tokens. -/
def isGap (c : Char) : Bool := c == ' ' || c == '\n' || c == '\t' || c == '\r'

def skipGap (s : List Char) : List Char := s.dropWhile isGap

def place : List Char → Nat → Nat × Nat → Nat × Nat
  | [], _, p => p
  | _, 0, p => p
  | c :: s, n + 1, (line, column) =>
    if c = '\n' then place s n (line + 1, 0)
    else place s (n + 1 - c.utf8Size) (line, column + min c.utf8Size (n + 1))

def Fault.place (f : Fault) (source : List Char) : Nat × Nat :=
  Json.place source (Text.width source - Text.width f.rest + min f.ahead (Text.width f.rest)) (1, 0)

def Fault.message (f : Fault) (source : List Char) : String :=
  let (line, column) := f.place source
  f.cause.message ++ " at line " ++ toString line ++ " column " ++ toString column

def hexValue? (c : Char) : Option Nat :=
  let n := c.toNat
  if 48 ≤ n ∧ n ≤ 57 then some (n - 48)
  else if 65 ≤ n ∧ n ≤ 70 then some (n - 55)
  else if 97 ≤ n ∧ n ≤ 102 then some (n - 87)
  else none

/-- Four hexadecimal digits. Four bytes are looked at, whatever they hold. -/
def readHex (s : List Char) : Except Fault (Nat × List Char) :=
  if Text.width (s.take 4) < 4 then .error ⟨.endOfString, s, 4⟩
  else match s with
    | a :: b :: c :: d :: r =>
      match hexValue? a, hexValue? b, hexValue? c, hexValue? d with
      | some w, some x, some y, some z => .ok (((w * 16 + x) * 16 + y) * 16 + z, r)
      | _, _, _, _ => .error ⟨.invalidEscape, s, 4⟩
    | _ => .error ⟨.invalidEscape, s, 4⟩

def readTrailing (lead : Nat) : List Char → Except Fault (Char × List Char)
  | [] => refuse .endOfString []
  | '\\' :: [] => refuse .endOfString []
  | '\\' :: 'u' :: r => do
    let (trail, r) ← readHex r
    if 0xDC00 ≤ trail ∧ trail ≤ 0xDFFF then
      .ok (Char.ofNat ((lead - 0xD800) * 1024 + (trail - 0xDC00) + 0x10000), r)
    else refuse .loneSurrogate r
  | '\\' :: r => refuseNext .shortSurrogate r
  | r => refuseNext .shortSurrogate r

/-- A character named by its code, a pair of surrogates together. -/
def readUnicode (s : List Char) : Except Fault (Char × List Char) := do
  let (n, r) ← readHex s
  if 0xDC00 ≤ n ∧ n ≤ 0xDFFF then refuse .loneSurrogate r
  else if 0xD800 ≤ n ∧ n ≤ 0xDBFF then readTrailing n r
  else .ok (Char.ofNat n, r)

def readEscape : List Char → Except Fault (Char × List Char)
  | [] => refuse .endOfString []
  | c :: r => match c with
    | '"' => .ok ('"', r)
    | '\\' => .ok ('\\', r)
    | '/' => .ok ('/', r)
    | 'b' => .ok (Char.ofNat 8, r)
    | 'f' => .ok (Char.ofNat 12, r)
    | 'n' => .ok ('\n', r)
    | 'r' => .ok ('\r', r)
    | 't' => .ok ('\t', r)
    | 'u' => readUnicode r
    | c => refuseNext .invalidEscape (c :: r)

/-- The inside of a string literal, up to and including the closing quote. -/
def readChars : Nat → List Char → Except Fault (List Char × List Char)
  | 0, s => refuse .endOfString s
  | _ + 1, [] => refuse .endOfString []
  | n + 1, c :: s =>
    if c = '"' then .ok ([], s)
    else if c = '\\' then do
      let (d, r) ← readEscape s
      let (ds, r) ← readChars n r
      .ok (d :: ds, r)
    else if c.toNat < 32 then refuse .controlCharacter s
    else do
      let (ds, r) ← readChars n s
      .ok (c :: ds, r)

/-- A string literal behind its opening quote. -/
def readString (s : List Char) : Except Fault (String × List Char) := do
  let (cs, r) ← readChars (s.length + 1) s
  .ok (String.ofList cs, r)

def digitValue (c : Char) : Nat := c.toNat - 48

/-- Appends digits to a whole number while it fits into 64 bits; the number and how many digits
were taken. -/
def takeDigits : Nat → List Char → Nat × Nat
  | n, [] => (n, 0)
  | n, c :: cs =>
    let m := n * 10 + digitValue c
    if maxWord < m then (n, 0)
    else
      let (k, count) := takeDigits m cs
      (k, count + 1)

/-- Scales by a power of ten. Powers beyond the table are applied in steps of `10 ^ 308`; a value
beyond the finite numbers is refused. -/
def scale : Nat → Float → Int → Option Float
  | 0, x, _ => some x
  | n + 1, x, e =>
    if e.natAbs ≤ 308 then
      let power := Decimal.ofDecimal false 1 (e.natAbs : Int)
      if e < 0 then some (x / power)
      else
        let y := x * power
        if y.isFinite then some y else none
    else if x == 0 then some x
    else if 0 < e then none
    else scale n (x / Decimal.ofDecimal false 1 308) (e + 308)

structure Literal where
  whole : List Char
  fraction : Option (List Char)
  exponent : Option (Bool × List Char)

def maxExponent : Nat := twoTo 31 - 1

/-- The value of a literal with a fraction, an exponent or too many digits. -/
def Literal.float? (l : Literal) : Option Float :=
  let (n, used) := takeDigits 0 l.whole
  let skipped := l.whole.length - used
  let (n, places) := takeDigits n (l.fraction.getD [])
  let base : Int := (skipped : Int) - (places : Int)
  match l.exponent with
  | none => scale 5 (Decimal.ofInt n) base
  | some (negative, digits) =>
    let e := digits.foldl (fun e c ↦ e * 10 + digitValue c) 0
    if maxExponent < e then
      if n ≠ 0 ∧ negative = false then none else some 0.0
    else scale 5 (Decimal.ofInt n) (if negative then base - e else base + e)

/-- The value of a literal. Zero with a minus sign is the negative zero. -/
def Literal.value? (l : Literal) (negative : Bool) : Option Json :=
  let n := l.whole.foldl (fun n c ↦ n * 10 + digitValue c) 0
  match l.fraction, l.exponent with
  | none, none =>
    if negative then
      if n = 0 then some (.float (-0.0))
      else if n ≤ twoTo 63 then some (.int (-n))
      else if n ≤ maxWord then some (.float (-Decimal.ofInt n))
      else (l.float?).map fun x ↦ .float (-x)
    else if n ≤ maxWord then some (.int n)
    else (l.float?).map .float
  | _, _ => (l.float?).map fun x ↦ .float (if negative then -x else x)

def readExponent (s : List Char) : Except Fault ((Bool × List Char) × List Char) :=
  let (negative, r) := match s with
    | '+' :: r => (false, r)
    | '-' :: r => (true, r)
    | r => (false, r)
  match r with
  | [] => refuse .endOfValue []
  | c :: _ =>
    if c.isDigit then .ok ((negative, r.takeWhile Char.isDigit), r.dropWhile Char.isDigit)
    else refuseNext .invalidNumber r

def readFraction (s : List Char) : Except Fault (List Char × List Char) :=
  match s.takeWhile Char.isDigit, s.dropWhile Char.isDigit with
  | [], [] => refuse .endOfValue []
  | [], r => refuseNext .invalidNumber r
  | ds, r => .ok (ds, r)

def readWhole : List Char → Except Fault (List Char × List Char)
  | [] => refuse .endOfValue []
  | '0' :: c :: r => if c.isDigit then refuseNext .invalidNumber (c :: r) else .ok (['0'], c :: r)
  | c :: r =>
    if c.isDigit then
      .ok ((c :: r).takeWhile Char.isDigit, (c :: r).dropWhile Char.isDigit)
    else refuseNext .invalidNumber (c :: r)

/-- A number literal without its sign. -/
def readLiteral (s : List Char) : Except Fault (Literal × List Char) := do
  let (whole, r) ← readWhole s
  let (fraction, r) ← match r with
    | '.' :: r => do
      let (ds, r) ← readFraction r
      .ok (some ds, r)
    | r => .ok (none, r)
  match r with
  | c :: r' =>
    if c = 'e' ∨ c = 'E' then do
      let (e, r) ← readExponent r'
      .ok (⟨whole, fraction, some e⟩, r)
    else .ok (⟨whole, fraction, none⟩, r)
  | [] => .ok (⟨whole, fraction, none⟩, [])

/-- A number behind its sign. -/
def readNumber (negative : Bool) (s : List Char) : Except Fault (Json × List Char) := do
  let (l, r) ← readLiteral s
  match l.value? negative with
  | some v => .ok (v, r)
  | none => refuse .numberOutOfRange r

def readWord (value : Json) : List Char → List Char → Except Fault (Json × List Char)
  | [], s => .ok (value, s)
  | _ :: _, [] => refuse .endOfValue []
  | p :: ps, c :: s => if p = c then readWord value ps s else refuseNext .expectedIdent (c :: s)

def depthLimit : Nat := 127

/-- What may stand between two items, or behind the last one. -/
def nextItem (first : Bool) (s : List Char) : Except Fault (Bool × List Char) :=
  match skipGap s with
  | [] => refuse .endOfList []
  | ']' :: r => .ok (false, r)
  | c :: r =>
    if first then .ok (true, c :: r)
    else if c = ',' then match skipGap r with
      | [] => refuse .endOfValue []
      | ']' :: r => refuseNext .trailingComma (']' :: r)
      | r => .ok (true, r)
    else refuseNext .expectedListEnd (c :: r)

/-- What may stand in front of a key, or behind the last entry. -/
def nextKey (first : Bool) (s : List Char) : Except Fault (Bool × List Char) :=
  match skipGap s with
  | [] => refuse .endOfObject []
  | '}' :: r => .ok (false, r)
  | c :: r =>
    if first then
      if c = '"' then .ok (true, r) else refuseNext .keyNotString (c :: r)
    else if c = ',' then match skipGap r with
      | [] => refuse .endOfValue []
      | '"' :: r => .ok (true, r)
      | '}' :: r => refuseNext .trailingComma ('}' :: r)
      | r => refuseNext .keyNotString r
    else refuseNext .expectedObjectEnd (c :: r)

def readColon (s : List Char) : Except Fault (Unit × List Char) :=
  match skipGap s with
  | [] => refuse .endOfObject []
  | ':' :: r => .ok ((), r)
  | r => refuseNext .expectedColon r

mutual

/-- A value. The first argument bounds the number of steps, the second the depth. -/
def readValue : Nat → Nat → List Char → Except Fault (Json × List Char)
  | 0, _, s => refuse .endOfValue s
  | n + 1, depth, s =>
    match skipGap s with
    | [] => refuse .endOfValue []
    | c :: r => match c with
      | 'n' => readWord .null ['u', 'l', 'l'] r
      | 't' => readWord (.bool true) ['r', 'u', 'e'] r
      | 'f' => readWord (.bool false) ['a', 'l', 's', 'e'] r
      | '-' => readNumber true r
      | '"' => do
        let (s, r) ← readString r
        .ok (.str s, r)
      | '[' => match depth with
        | 0 => refuseNext .tooDeep (c :: r)
        | depth + 1 => do
          let (items, r) ← readItems n depth true r
          .ok (.arr items, r)
      | '{' => match depth with
        | 0 => refuseNext .tooDeep (c :: r)
        | depth + 1 => do
          let (entries, r) ← readEntries n depth true r
          .ok (.obj entries, r)
      | c => if c.isDigit then readNumber false (c :: r) else refuseNext .expectedValue (c :: r)

def readItems : Nat → Nat → Bool → List Char → Except Fault (List Json × List Char)
  | 0, _, _, s => refuse .endOfList s
  | n + 1, depth, first, s => do
    let (more, r) ← nextItem first s
    if more then
      let (v, r) ← readValue n depth r
      let (vs, r) ← readItems n depth false r
      .ok (v :: vs, r)
    else .ok ([], r)

/-- Entries up to the closing brace, with every repetition of a key. -/
def readEntries : Nat → Nat → Bool → List Char → Except Fault (List (String × Json) × List Char)
  | 0, _, _, s => refuse .endOfObject s
  | n + 1, depth, first, s => do
    let (more, r) ← nextKey first s
    if more then
      let (k, r) ← readString r
      let (_, r) ← readColon r
      let (v, r) ← readValue n depth r
      let (es, r) ← readEntries n depth false r
      .ok ((k, v) :: es, r)
    else .ok ([], r)

end

def readEnd {α : Type} (value : α) (s : List Char) : Except Fault α :=
  match skipGap s with
  | [] => .ok value
  | r => .error ⟨.trailingCharacters, r, 1⟩

/-- The value of a whole text, with every repetition of a key. -/
def parseChars (s : List Char) : Except Fault Json := do
  let (v, r) ← readValue (2 * s.length + 2) depthLimit s
  readEnd v r

/-- The value of a whole text, or the wording of what is wrong with it. A repeated key keeps its
first place and takes its last value. -/
def parse (source : String) : Except String Json :=
  match parseChars source.toList with
  | .ok v => .ok v.merged
  | .error f => .error (f.message source.toList)

end Stencil.Json
