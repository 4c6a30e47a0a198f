import Stencil.Text.Offset
/-!
The tokens of a placeholder's payload. A lexeme is a piece of text with the place it starts at and
the token it is, if it is one. Text that no token begins with gives a lexeme of one character; a
string that is never closed gives one lexeme up to the end of its last whole character.
-/

namespace Stencil.Payload

/-- A stretch of text, in bytes. -/
structure Span where
  start : Nat
  stop : Nat
  deriving DecidableEq, Repr

def Span.shift (s : Span) (n : Nat) : Span := ⟨s.start + n, s.stop + n⟩

def Span.display (s : Span) : String :=
  "Span \x7b start: " ++ toString s.start ++ ", end: " ++ toString s.stop ++ " \x7d"

/-- A token. Strings keep their quotes and numbers their spelling. -/
inductive Token where
  | yes
  | no
  | null
  | ident (s : List Char)
  | double (raw : List Char)
  | single (raw : List Char)
  | number (raw : List Char)
  | openBrace
  | closeBrace
  | openBracket
  | closeBracket
  | comma
  | colon
  deriving DecidableEq, Repr

structure Lexeme where
  token? : Option Token
  text : List Char
  start : Nat
  deriving DecidableEq, Repr

def Lexeme.span (l : Lexeme) : Span := ⟨l.start, l.start + Text.width l.text⟩

def isGap (c : Char) : Bool := c == ' ' || c == '\t' || c == '\r' || c == '\n'

def isLetter (c : Char) : Bool := c.isUpper || c.isLower

def isWordStart (c : Char) : Bool := isLetter c || c == '_'

def isWordRest (c : Char) : Bool := isLetter c || c.isDigit || c == '_' || c == '-'

/-- The marks that a word may have in front: of variables and of data paths. -/
def isMark (c : Char) : Bool := c == '$' || c == '@'

/-- The token of a word: three words stand for values. -/
def wordToken (s : List Char) : Token :=
  if s = ['t', 'r', 'u', 'e'] then .yes
  else if s = ['f', 'a', 'l', 's', 'e'] then .no
  else if s = ['n', 'u', 'l', 'l'] then .null
  else .ident s

/-- What a string holds up to its closing quote: the characters before it, the text at which they
end, and whether a quote ends them. A backslash takes the next character with it, unless that is a
line feed. -/
def stringBody (quote : Char) : List Char → List Char × List Char × Bool
  | [] => ([], [], false)
  | c :: s =>
    if c = quote then ([], c :: s, true)
    else if c = '\\' then match s with
      | [] => ([], [c], false)
      | d :: s =>
        if d = '\n' then ([], c :: d :: s, false)
        else
          let (body, rest, closed) := stringBody quote s
          (c :: d :: body, rest, closed)
    else
      let (body, rest, closed) := stringBody quote s
      (c :: body, rest, closed)

/-- The exponent that text begins with, if it does: a letter, a sign that may be missing, and
digits. -/
def exponentPart : List Char → List Char
  | e :: s =>
    if e = 'e' ∨ e = 'E' then
      let (sign, r) := match s with
        | '+' :: r => (['+'], r)
        | '-' :: r => (['-'], r)
        | r => ([], r)
      match r.takeWhile Char.isDigit with
      | [] => []
      | ds => e :: sign ++ ds
    else []
  | [] => []

/-- The fraction that text begins with, if it does: a point and digits. -/
def fractionPart : List Char → List Char
  | '.' :: s => match s.takeWhile Char.isDigit with
    | [] => []
    | ds => '.' :: ds
  | _ => []

/-- The number without sign that text begins with; nothing when it does not begin with a digit. -/
def numberPart (s : List Char) : List Char :=
  match s.takeWhile Char.isDigit with
  | [] => []
  | ds =>
    let r := s.dropWhile Char.isDigit
    let f := fractionPart r
    ds ++ f ++ exponentPart (r.drop f.length)

/-- The lexeme that begins with a character: its token and its text behind that character. -/
def scan (c : Char) (s : List Char) : Option Token × List Char :=
  if isWordStart c then
    let w := s.takeWhile isWordRest
    (some (wordToken (c :: w)), w)
  else if isMark c then match s with
    | d :: r =>
      if isWordStart d then
        let w := d :: r.takeWhile isWordRest
        (some (.ident (c :: w)), w)
      else (none, [])
    | [] => (none, [])
  else if c = '"' ∨ c = '\'' then
    let (body, _, closed) := stringBody c s
    if closed then
      let w := body ++ [c]
      (some (if c = '"' then .double (c :: w) else .single (c :: w)), w)
    else (none, body)
  else if c.isDigit then
    let w := (numberPart (c :: s)).drop 1
    (some (.number (c :: w)), w)
  else if c = '-' then match numberPart s with
    | [] => (none, [])
    | w => (some (.number (c :: w)), w)
  else if c = '\x7b' then (some .openBrace, [])
  else if c = '\x7d' then (some .closeBrace, [])
  else if c = '[' then (some .openBracket, [])
  else if c = ']' then (some .closeBracket, [])
  else if c = ',' then (some .comma, [])
  else if c = ':' then (some .colon, [])
  else (none, [])

/-- The lexemes of a text that starts at a position. The first argument bounds their number. -/
def lexemesFrom : Nat → Nat → List Char → List Lexeme
  | 0, _, _ => []
  | _ + 1, _, [] => []
  | n + 1, i, c :: s =>
    if isGap c then lexemesFrom n (i + c.utf8Size) s
    else
      let (token?, w) := scan c s
      ⟨token?, c :: w, i⟩ :: lexemesFrom n (i + Text.width (c :: w)) (s.drop w.length)

def lexemes (s : List Char) : List Lexeme := lexemesFrom s.length 0 s

end Stencil.Payload
