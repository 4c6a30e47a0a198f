import Stencil.Json.Reader
import Stencil.Payload.Command
import Stencil.Text.Blank
/-!
Reading payloads. Semicolons outside quotes separate commands. A command is a word followed by
entries, each a key, a colon and a value, with commas between them; braces and brackets nest. A
command that is a mark and a path stands for the command that inserts the value at the path.
-/

namespace Stencil.Payload

inductive Expected where
  | commandName
  | parameterName
  | colon
  | value
  | comma
  | closingBracket
  deriving DecidableEq, Repr

def Expected.message : Expected → String
  | commandName => "command name"
  | parameterName => "parameter name"
  | colon => "':'"
  | value => "value"
  | comma => "','"
  | closingBracket => "']'"

/-- What is wrong with text that has the right tokens. -/
inductive Misfit where
  | noPath
  | badString (reason : String)
  | badNumber (raw : String)
  deriving DecidableEq, Repr

def Misfit.message : Misfit → String
  | noPath => "expected a path after the short form marker"
  | badString reason => "invalid string literal: " ++ reason
  | badNumber raw => "invalid number '" ++ raw ++ "'"

inductive Error where
  | unexpectedToken (span : Span) (expected : Expected) (found : String)
  | unexpectedEnd (position : Nat) (expected : Expected)
  | invalid (span : Span) (misfit : Misfit)
  | unknownCharacter (span : Span)
  deriving DecidableEq, Repr

namespace Error

def message : Error → String
  | unexpectedToken span expected found =>
    "Unexpected token at " ++ span.display ++ ": expected " ++ expected.message ++ ", found '" ++
      found ++ "'"
  | unexpectedEnd _ expected => "Unexpected end of placeholder: expected " ++ expected.message
  | invalid span misfit => "Invalid syntax at " ++ span.display ++ ": " ++ misfit.message
  | unknownCharacter span => "Lexer error at " ++ span.display ++ ": Unexpected character"

def span : Error → Span
  | unexpectedToken span _ _ => span
  | unexpectedEnd position _ => ⟨position, position⟩
  | invalid span _ => span
  | unknownCharacter span => span

def shift (n : Nat) : Error → Error
  | unexpectedToken span expected found => unexpectedToken (span.shift n) expected found
  | unexpectedEnd position expected => unexpectedEnd (position + n) expected
  | invalid span misfit => invalid (span.shift n) misfit
  | unknownCharacter span => unknownCharacter (span.shift n)

end Error

structure Lexed where
  token : Token
  text : List Char
  start : Nat
  deriving DecidableEq, Repr

def Lexed.span (l : Lexed) : Span := ⟨l.start, l.start + Text.width l.text⟩

/-- The tokens of lexemes; the first that is none is refused. -/
def tokensOf : List Lexeme → Except Error (List Lexed)
  | [] => .ok []
  | l :: ls => match l.token? with
    | none => .error (.unknownCharacter l.span)
    | some t => (tokensOf ls).map fun ts ↦ ⟨t, l.text, l.start⟩ :: ts

def endOf (ts : List Lexed) : Nat := (ts.getLast?.map fun l ↦ l.span.stop).getD 0

/-- The refusal of what stands first in `ts`, or of the end at `stop`. -/
def unexpected (stop : Nat) (expected : Expected) : List Lexed → Error
  | [] => .unexpectedEnd stop expected
  | l :: _ => .unexpectedToken l.span expected (String.ofList l.text)

/-- The inside of a string between single quotes. A backslash before `n` or `t` makes a line feed
or a tab, and else gives the character behind it. -/
def unescape : List Char → List Char
  | [] => []
  | '\\' :: [] => ['\\']
  | '\\' :: 'n' :: s => '\n' :: unescape s
  | '\\' :: 't' :: s => '\t' :: unescape s
  | '\\' :: c :: s => c :: unescape s
  | c :: s => c :: unescape s

def singleText (raw : List Char) : String := String.ofList (unescape (raw.drop 1).dropLast)

/-- The text of a string between double quotes, which is a string of data text. -/
def doubleText (raw : List Char) (span : Span) : Except Error String :=
  let answer := do
    let (s, r) ← Json.readString (raw.drop 1)
    Json.readEnd s r
  match answer with
  | .ok s => .ok s
  | .error f => .error (.invalid span (.badString (f.message raw)))

def digitsValue (ds : List Char) : Nat := ds.foldl (fun n c ↦ n * 10 + (c.toNat - 48)) 0

def splitSign : List Char → Bool × List Char
  | '-' :: r => (true, r)
  | '+' :: r => (false, r)
  | r => (false, r)

def decimalValue (raw : List Char) : Float :=
  let (negative, r) := splitSign raw
  let whole := r.takeWhile Char.isDigit
  let r := r.dropWhile Char.isDigit
  let (fraction, r) := match r with
    | '.' :: r => (r.takeWhile Char.isDigit, r.dropWhile Char.isDigit)
    | r => ([], r)
  let (down, e) := splitSign (r.drop 1)
  let exponent : Int := if down then -(digitsValue e : Int) else digitsValue e
  Decimal.ofDecimal negative (digitsValue (whole ++ fraction)) (exponent - fraction.length)

/-- Whether a number is written with digits and a sign only. -/
def isWhole (raw : List Char) : Bool := raw.all fun c ↦ !(c == '.' || c == 'e' || c == 'E')

/-- The value of a number: whole when it is written so and fits, else the nearest binary64 number,
which must be finite. -/
def numberValue (raw : List Char) (span : Span) : Except Error Json :=
  let (negative, digits) := splitSign raw
  let n : Int := if negative then -(digitsValue digits : Int) else digitsValue digits
  if isWhole raw && Json.fitsInt n then .ok (.int n)
  else
    let x := decimalValue raw
    if x.isFinite then .ok (.float x) else .error (.invalid span (.badNumber (String.ofList raw)))

/-- The key that a token stands for. The words for values are keys as well. -/
def keyText (stop : Nat) : List Lexed → Except Error (String × List Lexed)
  | [] => .error (unexpected stop .parameterName [])
  | l :: ts => match l.token with
    | .ident s => .ok (String.ofList s, ts)
    | .double raw => (doubleText raw l.span).map fun s ↦ (s, ts)
    | .single raw => .ok (singleText raw, ts)
    | .yes => .ok ("true", ts)
    | .no => .ok ("false", ts)
    | .null => .ok ("null", ts)
    | _ => .error (unexpected stop .parameterName (l :: ts))

def pastColon (stop : Nat) : List Lexed → Except Error (List Lexed)
  | [] => .error (unexpected stop .colon [])
  | l :: ts => if l.token = .colon then .ok ts else .error (unexpected stop .colon (l :: ts))

/-- What follows the end of entries, when `ts` begins with it: a brace where they are nested, the
end of the text where they are not. -/
def pastClosing (nested : Bool) : List Lexed → Option (List Lexed)
  | [] => if nested then none else some []
  | l :: ts => if nested && l.token == .closeBrace then some ts else none

mutual

/-- A value. The first argument bounds the number of steps. -/
def readValue (stop : Nat) : Nat → List Lexed → Except Error (Json × List Lexed)
  | 0, ts => .error (unexpected stop .value ts)
  | _ + 1, [] => .error (unexpected stop .value [])
  | n + 1, l :: ts => match l.token with
    | .yes => .ok (.bool true, ts)
    | .no => .ok (.bool false, ts)
    | .null => .ok (.null, ts)
    | .double raw => (doubleText raw l.span).map fun s ↦ (.str s, ts)
    | .single raw => .ok (.str (singleText raw), ts)
    | .ident s => .ok (.str (String.ofList s), ts)
    | .number raw => (numberValue raw l.span).map fun v ↦ (v, ts)
    | .openBrace => do
      let (es, ts) ← readEntries stop true n [] ts
      .ok (.obj es, ts)
    | .openBracket => do
      let (vs, ts) ← readItems stop n ts
      .ok (.arr vs, ts)
    | _ => .error (unexpected stop .value (l :: ts))

/-- The items of a list, up to its bracket. -/
def readItems (stop : Nat) : Nat → List Lexed → Except Error (List Json × List Lexed)
  | 0, ts => .error (unexpected stop .value ts)
  | n + 1, ts =>
    match ts with
    | ⟨.closeBracket, _, _⟩ :: ts => .ok ([], ts)
    | ts => do
      let (v, ts) ← readValue stop n ts
      match ts with
      | ⟨.comma, _, _⟩ :: ts =>
        let (vs, ts) ← readItems stop n ts
        .ok (v :: vs, ts)
      | ⟨.closeBracket, _, _⟩ :: ts => .ok ([v], ts)
      | ts => .error (unexpected stop .closingBracket ts)

/-- Entries up to their end, put behind those read before. -/
def readEntries (stop : Nat) (nested : Bool) :
    Nat → Entries Json → List Lexed → Except Error (Entries Json × List Lexed)
  | 0, _, ts => .error (unexpected stop .parameterName ts)
  | n + 1, es, ts =>
    match pastClosing nested ts with
    | some ts => .ok (es, ts)
    | none => do
      let (key, ts) ← keyText stop ts
      let ts ← pastColon stop ts
      let (v, ts) ← readValue stop n ts
      let es := es.put key v
      match ts with
      | ⟨.comma, _, _⟩ :: ts => readEntries stop nested n es ts
      | ts => match pastClosing nested ts with
        | some ts => .ok (es, ts)
        | none => .error (unexpected stop .comma ts)

end

/-- The command of the short forms. -/
def insertion : String := "String"

/-- A mark and a path, the short form of an insertion. -/
def shortForm? (s : List Char) : Option (Except Error Command) :=
  let form (key : String) (r : List Char) : Except Error Command :=
    match Text.trim r with
    | [] => .error (.invalid ⟨0, Text.width s⟩ .noPath)
    | path => .ok ⟨insertion, [(key, .str (String.ofList path))], some ⟨0, Text.width s⟩⟩
  match s with
  | '$' :: r => some (form "$value" r)
  | '@' :: r => some (form "@value" r)
  | _ => none

def namedCommand (s : List Char) : Except Error Command := do
  let ts ← tokensOf (lexemes s)
  let stop := endOf ts
  match ts with
  | ⟨.ident name, _, start⟩ :: rest =>
    if name.head?.all fun c ↦ !isMark c then
      let (params, _) ← readEntries stop false (2 * ts.length) [] rest
      .ok ⟨String.ofList name, params, some ⟨start, Text.width s⟩⟩
    else .error (unexpected stop .commandName ts)
  | ts => .error (unexpected stop .commandName ts)

/-- Reads one command. Places count from its first character that is not blank. -/
def readCommand (s : List Char) : Except Error Command :=
  let t := Text.trim s
  match shortForm? t with
  | some answer => answer
  | none => namedCommand t

/-- Where a scan of text stands with respect to quotes. -/
inductive Quoting where
  | outside
  | inside (quote : Char)
  | escaped (quote : Char)
  deriving DecidableEq, Repr

def Quoting.step : Quoting → Char → Quoting
  | outside, c => if c = '"' ∨ c = '\'' then inside c else outside
  | inside q, c => if c = '\\' then escaped q else if c = q then outside else inside q
  | escaped q, _ => inside q

/-- The pieces between semicolons outside quotes. -/
def segments : Quoting → List Char → List (List Char)
  | _, [] => [[]]
  | q, c :: s =>
    if q = .outside ∧ c = ';' then [] :: segments .outside s
    else match segments (q.step c) s with
      | [] => [[c]]
      | p :: ps => (c :: p) :: ps

/-- The commands of pieces that start at a position; blank pieces count for nothing. -/
def readSegments : Nat → List (List Char) → Except Error Commands
  | _, [] => .ok []
  | i, p :: ps =>
    if (Text.trim p).isEmpty then readSegments (i + Text.width p + 1) ps
    else
      let leading := Text.width p - Text.width (Text.trimStart p)
      match readCommand p with
      | .error e => .error (e.shift (i + leading))
      | .ok c => (readSegments (i + Text.width p + 1) ps).map (c :: ·)

/-- Reads a payload, which holds at least one command. -/
def read (s : List Char) : Except Error Commands := do
  let cs ← readSegments 0 (segments .outside s)
  if cs.isEmpty then .error (.unexpectedEnd (Text.width s) .commandName) else .ok cs

end Stencil.Payload
