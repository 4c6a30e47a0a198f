import Stencil.Json.Reader
import Stencil.Json.Text
import Stencil.Text.Printable
/-!
Reading data text as a record of known fields. The text is read once from left to right, and each
field's value is read as what the field calls for, so the first thing that does not fit is reported
at its place. Fields that are left out keep their values, and unknown ones do not count. A list
stands for the first fields in order.
-/

namespace Stencil.Json

/-- A field of a record: its name, and how its value is read into the record. -/
structure Field (α : Type) where
  name : String
  read : α → List Char → Except Fault (α × List Char)

/-- A form of records: what such a record is called, and its fields in order. -/
structure RecordForm (α : Type) where
  title : String
  fields : List (Field α)

def kindText : Json → String
  | .null => "null"
  | .bool b => "boolean `" ++ (if b then "true" else "false") ++ "`"
  | .int n => "integer `" ++ String.ofList (Decimal.intText n) ++ "`"
  | .float x => "floating point `" ++ String.ofList (floatText x) ++ "`"
  | .str s => "string " ++ Text.literal s
  | .arr _ => "sequence"
  | .obj _ => "map"

def wrongKind (found : Json) (expected : String) : Cause :=
  .custom ("invalid type: " ++ kindText found ++ ", expected " ++ expected)

/-- Refuses the next value as one of another kind than expected. What is inside of a list or an
object is not looked at. -/
def refuseKind {α : Type} (expected : String) (s : List Char) : Except Fault (α × List Char) :=
  match skipGap s with
  | '[' :: r => refuse (wrongKind (.arr []) expected) ('[' :: r)
  | '{' :: r => refuse (wrongKind (.obj []) expected) ('{' :: r)
  | r => match readValue 1 0 r with
    | .ok (v, rest) => refuse (wrongKind v expected) rest
    | .error e => .error e

def readText (s : List Char) : Except Fault (String × List Char) :=
  match skipGap s with
  | '"' :: r => readString r
  | r => refuseKind "a string" r

def readText? (s : List Char) : Except Fault (Option String × List Char) :=
  match skipGap s with
  | 'n' :: r => do
    let (_, r) ← readWord .null ['u', 'l', 'l'] r
    .ok (none, r)
  | r => do
    let (t, r) ← readText r
    .ok (some t, r)

def readBool (s : List Char) : Except Fault (Bool × List Char) :=
  match skipGap s with
  | 't' :: r => do
    let (_, r) ← readWord (.bool true) ['r', 'u', 'e'] r
    .ok (true, r)
  | 'f' :: r => do
    let (_, r) ← readWord (.bool false) ['a', 'l', 's', 'e'] r
    .ok (false, r)
  | r => refuseKind "a boolean" r

/-- Reads a whole number of 64 bits that is not negative. -/
def readWordNumber (expected : String) (s : List Char) : Except Fault (Nat × List Char) :=
  match readValue 1 0 s with
  | .ok (.int n, r) =>
    if n < 0 then refuse (.custom ("invalid value: " ++ kindText (.int n) ++ ", expected " ++ expected)) r
    else .ok (n.toNat, r)
  | _ => refuseKind expected s

def skipValue (s : List Char) : Except Fault (Unit × List Char) := do
  let (_, r) ← readValue (2 * s.length + 2) s.length s
  .ok ((), r)

namespace RecordForm

variable {α : Type} (f : RecordForm α)

/-- Reads entries up to the closing brace. The first argument bounds their number; `seen` are the
fields read so far, none of which may come again. -/
def readEntries : Nat → List String → Bool → α → List Char → Except Fault (α × List Char)
  | 0, _, _, _, s => refuse .endOfObject s
  | n + 1, seen, first, a, s => do
    let (more, r) ← nextKey first s
    if more then
      let (key, r) ← readString r
      match f.fields.find? fun x ↦ x.name == key with
      | none =>
        let (_, r) ← readColon r
        let (_, r) ← skipValue r
        readEntries n seen false a r
      | some field =>
        if seen.contains key then refuse (.custom ("duplicate field `" ++ key ++ "`")) (skipGap r)
        else
          let (_, r) ← readColon r
          let (a, r) ← field.read a r
          readEntries n (key :: seen) false a r
    else .ok (a, r)

def endItems (a : α) (s : List Char) : Except Fault (α × List Char) :=
  match skipGap s with
  | [] => refuse .endOfList []
  | ']' :: r => .ok (a, r)
  | ',' :: r => match skipGap r with
    | ']' :: r => refuseNext .trailingComma (']' :: r)
    | r => refuseNext .trailingCharacters r
  | r => refuseNext .trailingCharacters r

def readItems (first : Bool) (a : α) (s : List Char) : List (Field α) → Except Fault (α × List Char)
  | [] => endItems a s
  | field :: fields => do
    let (more, r) ← nextItem first s
    if more then
      let (a, r) ← field.read a r
      readItems false a r fields
    else .ok (a, r)

/-- Reads a record over one that holds what is left out. -/
def read (a : α) (s : List Char) : Except Fault (α × List Char) :=
  match skipGap s with
  | '{' :: r => f.readEntries (r.length + 1) [] true a r
  | '[' :: r => readItems true a r f.fields
  | r => refuseKind f.title r

def parse (a : α) (source : String) : Except String α :=
  let s := source.toList
  match (do
    let (b, r) ← f.read a s
    readEnd b r) with
  | .ok b => .ok b
  | .error fault => .error (fault.message s)

end RecordForm

end Stencil.Json
