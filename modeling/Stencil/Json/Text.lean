import Stencil.Json.Basic
import Stencil.Decimal.Layout
/-!
Writing values as data text, compact or indented. Strings escape the quote, the backslash and the
control characters and nothing else; a number that is not finite has no form and is written as
`null`.
-/

namespace Stencil.Json

def hexDigit (n : Nat) : Char := if n < 10 then Char.ofNat (48 + n) else Char.ofNat (87 + n)

def escape (c : Char) : List Char :=
  if c = '"' then ['\\', '"']
  else if c = '\\' then ['\\', '\\']
  else if c = '\n' then ['\\', 'n']
  else if c = '\r' then ['\\', 'r']
  else if c = '\t' then ['\\', 't']
  else if c.toNat = 8 then ['\\', 'b']
  else if c.toNat = 12 then ['\\', 'f']
  else if c.toNat < 32 then ['\\', 'u', '0', '0', hexDigit (c.toNat / 16), hexDigit (c.toNat % 16)]
  else [c]

def quote (s : List Char) : List Char := '"' :: s.flatMap escape ++ ['"']

/-- A binary64 number, `null` when it is not finite. -/
def floatText (x : Float) : List Char := (Decimal.dataText? x).getD "null".toList

mutual

def compact : Json → List Char
  | .null => "null".toList
  | .bool b => if b then "true".toList else "false".toList
  | .int n => Decimal.intText n
  | .float x => floatText x
  | .str s => quote s.toList
  | .arr items => '[' :: compactItems true items ++ [']']
  | .obj entries => '{' :: compactEntries true entries ++ ['}']

/-- Items, with a comma in front of each but the first. -/
def compactItems (first : Bool) : List Json → List Char
  | [] => []
  | v :: vs => (if first then [] else [',']) ++ compact v ++ compactItems false vs

def compactEntries (first : Bool) : List (String × Json) → List Char
  | [] => []
  | (k, v) :: es =>
    (if first then [] else [',']) ++ quote k.toList ++ ':' :: compact v ++ compactEntries false es

end

/-- A line break followed by the indentation of a level. -/
def newline (level : Nat) : List Char := '\n' :: List.replicate (2 * level) ' '

mutual

/-- A value with one item or entry a line, two blanks a level. -/
def indented (level : Nat) : Json → List Char
  | .null => "null".toList
  | .bool b => if b then "true".toList else "false".toList
  | .int n => Decimal.intText n
  | .float x => floatText x
  | .str s => quote s.toList
  | .arr [] => ['[', ']']
  | .arr (v :: vs) =>
    '[' :: newline (level + 1) ++ indented (level + 1) v ++ indentedItems (level + 1) vs ++
      newline level ++ [']']
  | .obj [] => ['{', '}']
  | .obj ((k, v) :: es) =>
    '{' :: newline (level + 1) ++ quote k.toList ++ ':' :: ' ' :: indented (level + 1) v ++
      indentedEntries (level + 1) es ++ newline level ++ ['}']

def indentedItems (level : Nat) : List Json → List Char
  | [] => []
  | v :: vs => ',' :: newline level ++ indented level v ++ indentedItems level vs

def indentedEntries (level : Nat) : List (String × Json) → List Char
  | [] => []
  | (k, v) :: es =>
    ',' :: newline level ++ quote k.toList ++ ':' :: ' ' :: indented level v ++
      indentedEntries level es

end

def text (v : Json) : String := String.ofList v.compact

def prettyText (v : Json) : String := String.ofList (v.indented 0)

end Stencil.Json
