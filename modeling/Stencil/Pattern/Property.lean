import Stencil.Text.Blank
import Stencil.Text.Property
import Stencil.Text.Script
/-!
Properties of characters by their names. Small and capital letters are the same in a name, blanks,
underscores and hyphens do not count, and neither does a leading `is`.
-/

namespace Stencil.Pattern

def categoryNames : List (List String × List Text.Category) :=
  [(["lu", "uppercaseletter"], [.uppercaseLetter]),
    (["ll", "lowercaseletter"], [.lowercaseLetter]),
    (["lt", "titlecaseletter"], [.titlecaseLetter]),
    (["lc", "casedletter"], [.uppercaseLetter, .lowercaseLetter, .titlecaseLetter]),
    (["lm", "modifierletter"], [.modifierLetter]),
    (["lo", "otherletter"], [.otherLetter]),
    (["l", "letter"], Text.letters),
    (["mn", "nonspacingmark"], [.nonspacingMark]),
    (["mc", "spacingmark"], [.spacingMark]),
    (["me", "enclosingmark"], [.enclosingMark]),
    (["m", "mark", "combiningmark"], Text.marks),
    (["nd", "decimalnumber", "digit"], [.decimalNumber]),
    (["nl", "letternumber"], [.letterNumber]),
    (["no", "othernumber"], [.otherNumber]),
    (["n", "number"], [.decimalNumber, .letterNumber, .otherNumber]),
    (["pc", "connectorpunctuation"], [.connectorPunctuation]),
    (["pd", "dashpunctuation"], [.dashPunctuation]),
    (["ps", "openpunctuation"], [.openPunctuation]),
    (["pe", "closepunctuation"], [.closePunctuation]),
    (["pi", "initialpunctuation"], [.initialPunctuation]),
    (["pf", "finalpunctuation"], [.finalPunctuation]),
    (["po", "otherpunctuation"], [.otherPunctuation]),
    (["p", "punctuation", "punct"],
      [.connectorPunctuation, .dashPunctuation, .openPunctuation, .closePunctuation,
        .initialPunctuation, .finalPunctuation, .otherPunctuation]),
    (["sm", "mathsymbol"], [.mathSymbol]),
    (["sc", "currencysymbol"], [.currencySymbol]),
    (["sk", "modifiersymbol"], [.modifierSymbol]),
    (["so", "othersymbol"], [.otherSymbol]),
    (["s", "symbol"], [.mathSymbol, .currencySymbol, .modifierSymbol, .otherSymbol]),
    (["zs", "spaceseparator"], [.spaceSeparator]),
    (["zl", "lineseparator"], [.lineSeparator]),
    (["zp", "paragraphseparator"], [.paragraphSeparator]),
    (["z", "separator"], [.spaceSeparator, .lineSeparator, .paragraphSeparator]),
    (["cc", "control", "cntrl"], [.control]),
    (["cf", "format"], [.format]),
    (["co", "privateuse"], [.privateUse]),
    (["cn", "unassigned"], [.unassigned]),
    (["c", "other"], [.control, .format, .privateUse, .unassigned]),
    (["assigned"], Text.Category.assigned),
    (["any"], .unassigned :: Text.Category.assigned)]

def category? (name : String) : Option (Char → Bool) :=
  if name = "ascii" then some fun c ↦ decide (c.toNat < 128)
  else (categoryNames.find? fun p ↦ p.1.contains name).map fun p ↦ Text.isOfAny p.2

def script? (name : String) : Option (Char → Bool) := (Text.Script.find? name).map fun s ↦ s.holds

def isHexDigit (c : Char) : Bool :=
  c.isDigit || ('a' ≤ c && c ≤ 'f') || ('A' ≤ c && c ≤ 'F')

/-- The characters with a property that is none of category and script. -/
def plainProperty? (name : String) : Option (Char → Bool) :=
  match name with
  | "alpha" | "alphabetic" => some Text.isAlphabetic
  | "upper" | "uppercase" => some Text.isUppercase
  | "lower" | "lowercase" => some Text.isLowercase
  | "space" | "wspace" | "whitespace" => some Text.isBlank
  | "ahex" | "asciihexdigit" => some isHexDigit
  | _ => none

/-- A name of a property as it is looked up. `isc` is not the group `c` behind an `is`. -/
def propertyName (s : List Char) : String :=
  let s := s.map Char.toLower
  let plain (s : List Char) : List Char :=
    s.filter fun c ↦ !(c == ' ' || c == '_' || c == '-') && decide (c.toNat < 128)
  match s with
  | 'i' :: 's' :: r => if plain r = ['c'] then "isc" else String.ofList (plain r)
  | s => String.ofList (plain s)

def property? (name : List Char) : Option (Char → Bool) :=
  let name := propertyName name
  plainProperty? name <|> category? name <|> script? name

def propertyValue? (name value : List Char) : Option (Char → Bool) :=
  match propertyName name with
  | "gc" | "generalcategory" => category? (propertyName value)
  | "sc" | "script" => script? (propertyName value)
  | _ => none

/-- What stands between the braces of a property: a name, or a name and a value with a colon, an
equals sign or a sign for being different between them. -/
def describedSet? (s : List Char) : Option (Char → Bool) :=
  let separator (c : Char) : Bool := c == ':' || c == '=' || c == '!'
  match s.takeWhile (!separator ·), s.dropWhile (!separator ·) with
  | name, '!' :: '=' :: value => (propertyValue? name value).map fun set c ↦ !set c
  | name, ':' :: value => propertyValue? name value
  | name, '=' :: value => propertyValue? name value
  | _, _ => property? s

end Stencil.Pattern
