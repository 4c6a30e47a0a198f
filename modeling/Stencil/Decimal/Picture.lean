import Stencil.Decimal.Layout
import Stencil.Text.Offset
/-!
Pictures of numbers. `#` is a digit that may lack and `0` one that may not, a comma marks the size of
the groups and a point the decimal places; other characters in front and behind stand for themselves.
-/

namespace Stencil.Decimal

/-- The characters that separate groups and places in a language. -/
structure Separators where
  group : Char
  point : Char
  deriving DecidableEq, Repr

namespace Separators

/-- Languages that write `1.234,5`. -/
def pointGrouped : List String := ["de", "es", "it", "nl", "pt", "da", "id", "tr"]

/-- Languages that write `1 234,5`. -/
def blankGrouped : List String := ["fr", "ru", "pl", "cs", "sv", "fi", "nb", "uk"]

def lowered (c : Char) : Char := if c.isUpper then c.toLower else c

/-- The language of a tag: what stands before the first hyphen or underscore. -/
def language (tag : String) : String :=
  String.ofList ((tag.toList.takeWhile fun c ↦ !(c == '-' || c == '_')).map lowered)

/-- The separators of a language, English unless it is known. -/
def ofTag (tag? : Option String) : Separators :=
  let l := language (tag?.getD "en")
  if pointGrouped.contains l then ⟨'.', ','⟩
  else if blankGrouped.contains l then ⟨'\u00a0', ','⟩
  else ⟨',', '.'⟩

end Separators

inductive PictureFault where
  | noDigits (text : String)
  | malformed (text : String)
  deriving DecidableEq, Repr

def PictureFault.message : PictureFault → String
  | noDigits text => "number format '" ++ text ++ "' has no digits"
  | malformed text => "malformed number format '" ++ text ++ "'"

/-- A picture: the text around the number, the least whole digits, the size of groups or zero for
none, and the least and the greatest number of places. -/
structure Picture where
  front : List Char
  back : List Char
  leastWhole : Nat
  groupSize : Nat
  leastPlaces : Nat
  mostPlaces : Nat
  deriving DecidableEq, Repr

namespace Picture

def isMark (c : Char) : Bool := c == '#' || c == '0' || c == ',' || c == '.'

/-- Cuts text into what is before the first mark, from it to the last one, and behind. -/
def cut (s : List Char) : List Char × List Char × List Char :=
  let r := s.dropWhile fun c ↦ !isMark c
  let back := (r.reverse.takeWhile fun c ↦ !isMark c).reverse
  (s.takeWhile fun c ↦ !isMark c, r.take (r.length - back.length), back)

def behindComma? (s : List Char) : Option (List Char) :=
  if s.contains ',' then some (s.reverse.takeWhile (· != ',')).reverse else none

def parse (text : String) : Except PictureFault Picture :=
  match cut text.toList with
  | (_, [], _) => .error (.noDigits text)
  | (front, body, back) =>
    let whole := body.takeWhile (· != '.')
    let places := (body.dropWhile (· != '.')).drop 1
    if places.contains '.' || places.contains ',' then .error (.malformed text)
    else .ok {
      front, back
      leastWhole := max (whole.count '0') 1
      groupSize := ((behindComma? whole).map Text.width).getD 0
      leastPlaces := places.count '0'
      mostPlaces := Text.width places }

/-- Digits with a separator before each whole group counted from the right; none stands in front. -/
def grouped (size : Nat) (separator : Char) : List Char → List Char
  | [] => []
  | [d] => [d]
  | d :: ds =>
    if 0 < size ∧ ds.length % size = 0 then d :: separator :: grouped size separator ds
    else d :: grouped size separator ds

/-- Places without the zeros at their end, as far as fewer are allowed. -/
def trimPlaces (least : Nat) : List Char → List Char
  | [] => []
  | d :: ds =>
    match least, trimPlaces (least - 1) ds with
    | 0, [] => if d = '0' then [] else [d]
    | _, rest => d :: rest

/-- A number in a picture. A minus sign shows only when a digit other than zero does. -/
def text (p : Picture) (separators : Separators) (x : Float) : List Char :=
  let (whole, places) := fixed p.mostPlaces x
  let places := trimPlaces p.leastPlaces places
  let digits := padZeros p.leastWhole whole
  let negative := decide (x < 0) && (digits.any (· != '0') || places.any (· != '0'))
  (if negative then ['-'] else []) ++ p.front ++ grouped p.groupSize separators.group digits ++
    (if places.isEmpty then [] else separators.point :: places) ++ p.back

end Picture

end Stencil.Decimal
