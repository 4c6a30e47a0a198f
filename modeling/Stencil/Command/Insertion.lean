import Stencil.Command.Missing
/-!
Commands that write values as they are: one value, the values of a list, the position in a loop.
-/

namespace Stencil

namespace Handler

def insertion : Handler where
  names := ["String"]
  execute s := do
    match ← s.value? "value" with
    | none => s.writeMissing
    | some (.leaf .null) => s.writeMissing
    | some (.leaf v) => s.write v.text
    | some _ => throw (.value (.notSingle (s.command.describe "value")))

end Handler

/-- How texts are joined: what stands between them, what stands before the last, how many there may
be, and what follows the last of too many. -/
structure Joint where
  separator : String
  lastSeparator : String
  limit? : Option Nat
  truncated : String
  deriving DecidableEq, Repr

namespace Joint

def link (j : Joint) : List String → String
  | [] => ""
  | [a] => a
  | [a, b] => a ++ j.lastSeparator ++ b
  | a :: b :: c :: items => a ++ j.separator ++ link j (b :: c :: items)

def join (j : Joint) (items : List String) : String :=
  match j.limit? with
  | some n => if n < items.length then j.separator.intercalate (items.take n) ++ j.truncated else j.link items
  | none => j.link items

def ofCommand (c : Command) : Except RunError Joint :=
  let separator := (c.str? "separator").getD ", "
  let lastSeparator := (c.str? "lastSeparator").getD separator
  let truncated := (c.str? "truncated").getD "..."
  match c.param? "limit" with
  | none => .ok ⟨separator, lastSeparator, none, truncated⟩
  | some v => match v.nat? with
    | some n => .ok ⟨separator, lastSeparator, some n, truncated⟩
    | none => .error (.value (.notCount "limit"))

end Joint

def textsOf : List Datum → Except RunError (List String)
  | [] => .ok []
  | .leaf v :: ds => (textsOf ds).map (v.text :: ·)
  | _ :: _ => .error (.value .notJoinable)

namespace Handler

def writeJoined (s : Selection) (items : List String) : Run Outcome := do
  s.write ((← Run.ofExcept id (Joint.ofCommand s.command)).join items)

def joined : Handler where
  names := ["Join"]
  execute s := do
    match ← s.value? "value" with
    | none => s.writeMissing
    | some (.leaf .null) => s.writeMissing
    | some (.leaf v) => writeJoined s [v.text]
    | some (.list items) => writeJoined s (← Run.ofExcept id (textsOf items))
    | some (.map _) => throw (.value .joinOfMap)

/-- The index that a counter shows: its own parameter, or the variable of the loop around it. -/
def loopIndex? (s : Selection) : Run (Option Datum) := do
  let m ← Run.model
  match ← s.source? "index" with
  | some source => return m.value? source
  | none => return m.resolve ⟨[.variableName "index"]⟩

/-- Writes the position in a loop, counted from one; outside of loops the placeholder is removed. -/
def counter : Handler where
  names := ["Counter"]
  execute s := do
    match ← loopIndex? s with
    | some (.leaf (.int n)) => s.write (String.ofList (Decimal.intText (n + 1)))
    | _ => s.remove

end Handler

end Stencil
