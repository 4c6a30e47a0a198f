import Stencil.Condition.Basic
/-!
Conditions as parameter objects. The keys `and`, `or`, `not`, `less` and `greater` join; every
other key is a field that is compared with its value. Entries that stand side by side must all
hold. A comparison is a leaf, so a field may not be mapped to an object that has entries.
-/

namespace Stencil

inductive ConditionCause where
  | notPath (cause : PathError)
  | nested
  | count (found : Nat)
  | notObject
  | notObjects
  | onlyComparisons (key : String)
  deriving DecidableEq, Repr

def ConditionCause.message : ConditionCause → String
  | notPath cause => cause.message
  | nested => "a comparison cannot have nested conditions"
  | count found => "expected exactly one condition, found " ++ toString found
  | notObject => "expected an object"
  | notObjects => "expected an object or array"
  | onlyComparisons key => "'" ++ key ++ "' only accepts comparisons"

/-- A refused condition: the key it fails at, and why. -/
structure ConditionError where
  key : String
  cause : ConditionCause
  deriving DecidableEq, Repr

def ConditionError.message (e : ConditionError) : String :=
  "Invalid condition at '" ++ e.key ++ "': " ++ e.cause.message

namespace Condition

def ofComparison (field : String) (literal : Datum) (comparator : Comparator)
    (members : List Condition) : Except ConditionError Condition :=
  if members.isEmpty then
    match Field.parse field with
    | .ok f => .ok (compare ⟨f, literal, comparator⟩)
    | .error e => .error ⟨field, .notPath e⟩
  else .error ⟨field, .nested⟩

def ofNegated : List Condition → Except ConditionError Condition
  | [c] => .ok (not c)
  | cs => .error ⟨"not", .count cs.length⟩

/-- Conditions that must all hold; a single one stands for itself. -/
def conjunction : List Condition → Condition
  | [c] => c
  | cs => all cs

inductive Key where
  | group (join : List Condition → Condition)
  | order (comparator : Comparator)
  | field

def Key.ofText (key : String) : Key :=
  if key = "and" then group all
  else if key = "or" then group any
  else if key = "not" then group fun cs ↦ not (conjunction cs)
  else if key = "less" then order .less
  else if key = "greater" then order .greater
  else field

mutual

/-- The condition of an entry; fields are compared by `comparator`. -/
def readEntry (comparator : Comparator) (key : String) : Json → Except ConditionError Condition
  | .obj es => match Key.ofText key with
    | .group join => (readEntries .equal es).map join
    | .order comparator => (readComparisons key comparator es).map conjunction
    | .field => (readEntries comparator es).bind fun cs ↦
      ofComparison key (Datum.ofJson (.obj es)) comparator cs
  | .arr items => match Key.ofText key with
    | .group join => (readMembers key items).map join
    | .order _ => .error ⟨key, .notObject⟩
    | .field => ofComparison key (Datum.ofJson (.arr items)) comparator []
  | v => match Key.ofText key with
    | .group _ => .error ⟨key, .notObjects⟩
    | .order _ => .error ⟨key, .notObject⟩
    | .field => ofComparison key (Datum.ofJson v) comparator []

def readEntries (comparator : Comparator) :
    List (String × Json) → Except ConditionError (List Condition)
  | [] => .ok []
  | (k, v) :: es => do
    let c ← readEntry comparator k v
    let cs ← readEntries comparator es
    .ok (c :: cs)

def readMembers (key : String) : List Json → Except ConditionError (List Condition)
  | [] => .ok []
  | .obj es :: items => do
    let cs ← readEntries .equal es
    let ds ← readMembers key items
    .ok (conjunction cs :: ds)
  | _ :: _ => .error ⟨key, .notObject⟩

/-- The comparisons of entries, none of which may join others. -/
def readComparisons (key : String) (comparator : Comparator) :
    List (String × Json) → Except ConditionError (List Condition)
  | [] => .ok []
  | (k, v) :: es => match Key.ofText k with
    | .field => do
      let c ← readEntry comparator k v
      let cs ← readComparisons key comparator es
      .ok (c :: cs)
    | _ => .error ⟨k, .onlyComparisons key⟩

end

def ofParams (params : Entries Json) : Except ConditionError Condition :=
  (readEntries .equal params).map conjunction

end Condition

end Stencil
