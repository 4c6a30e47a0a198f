import Stencil.Run.State
/-!
A command at work: the placeholder it was found in, its parameters, and what it may use. A value
may be given by itself, by a path that starts with a variable, or by a data path; the mark of the
parameter says which.
-/

namespace Stencil

namespace Command

def pathText (key : String) (v : Json) : Except RunError String :=
  match v.str? with
  | some s => .ok s
  | none => .error (.value (.notPathText key))

/-- The source of a data path; one with a variable in it is that of a variable. -/
def sourceOfPath (p : Path) : Source := if p.hasVariable then .ofVariable p else .ofModel p

def liftPath {α : Type} : Except PathError α → Except RunError α
  | .ok a => .ok a
  | .error e => .error (.path e)

/-- Where a value comes from: the parameter without a mark, or with the mark of variables, or with
that of data paths, whichever is there first. -/
def source? (c : Command) (key : String) : Except RunError (Option Source) :=
  match c.param? key, c.param? ("$" ++ key), c.param? ("@" ++ key) with
  | some v, _, _ => .ok (some (.literal (Datum.ofJson v)))
  | none, some v, _ => do
    let text ← pathText ("$" ++ key) v
    let p ← liftPath (Path.parseVariable text)
    .ok (some (.ofVariable p))
  | none, none, some v => do
    let text ← pathText ("@" ++ key) v
    let p ← liftPath (Path.parse text)
    .ok (some (sourceOfPath p))
  | none, none, none => .ok none

/-- A value parameter in words: its key as it is spelled, with its text where it is one. -/
def describe (c : Command) (key : String) : String :=
  let spelled := [key, "$" ++ key, "@" ++ key].findSome? fun k ↦ (c.param? k).map fun v ↦
    match v.str? with
    | some s => k ++ ":" ++ s
    | none => k
  spelled.getD key

def requireStr (c : Command) (key : String) : Except RunError String :=
  match c.str? key with
  | some s => .ok s
  | none => .error (.structure (.missingParam c.name key))

end Command

/-- A command at work. A document that holds no text has no toolkit. -/
structure Selection where
  node : NodeId
  command : Command
  toolkit? : Option Toolkit
  provider : Provider
  now : Calendar.Moment

namespace Selection

variable (s : Selection)

/-- The toolkit, which must be there. -/
def toolkit : Run Toolkit :=
  match s.toolkit? with
  | some t => pure t
  | none => throw (.structure .noToolkit)

def requireStr (key : String) : Run String := Run.ofExcept id (s.command.requireStr key)

def source? (key : String) : Run (Option Source) := Run.ofExcept id (s.command.source? key)

/-- A value; nothing when it is not given or its path leads nowhere. -/
def value? (key : String) : Run (Option Datum) := do
  let source ← s.source? key
  let m ← Run.model
  return source.bind m.value?

/-- The name of a placeholder: the command that its first one stands for. -/
def nameOf? (t : Toolkit) (id : NodeId) : Run (Option String) := do
  let state ← get
  return (state.document.payload? t.delimiters id).bind fun p ↦ match Payload.read p with
    | .ok (c :: _) => some (state.aliases.target c.name)
    | _ => none

/-- How far a search for a closing placeholder has come: how many blocks are open, and whether it is
in a region that does not count. -/
structure Nesting where
  depth : Nat
  ignoring : Bool
  deriving DecidableEq, Repr

def Nesting.closes (n : Nesting) (closer : String) (name? : Option String) : Bool :=
  name? == some closer && n.depth == 0 && !n.ignoring

def Nesting.pass (n : Nesting) (openers : List String) (closer : String) : Option String → Nesting
  | none => n
  | some name =>
    if name = "Ignore" ∧ closer ≠ "EndIgnore" then { n with ignoring := true }
    else if name = "EndIgnore" ∧ n.ignoring then { n with ignoring := false }
    else if n.ignoring then n
    else if name = closer then { n with depth := n.depth - 1 }
    else if openers.contains name then { n with depth := n.depth + 1 }
    else n

/-- Looks for the closing placeholder from a node on. The first argument bounds the number of
placeholders passed. -/
def seekEnd (t : Toolkit) (openers : List String) (closer : String) :
    Nat → Nesting → Option NodeId → Run (Option NodeId)
  | 0, _, _ => pure none
  | _ + 1, _, none => pure none
  | n + 1, nesting, some id => do
    match ← Run.search t id with
    | none => pure none
    | some found =>
      let name? ← nameOf? t found
      if nesting.closes closer name? then pure (some found)
      else
        let d ← Run.document
        seekEnd t openers closer n (nesting.pass openers closer name?) (d.nextAfter? found)

/-- A bound on the number of placeholders of a document: each has a character at least. -/
def placeholderBound (d : Document) : Nat :=
  d.nodes.foldl (fun n node ↦ match node.data with
    | .text s => n + s.length + 1
    | .element _ _ => n + 1) 1

/-- The closing placeholder of the block that the selection opens. Blocks of the openers nest, and
what stands between `Ignore` and `EndIgnore` does not count. -/
def areaEnd (openers : List String) (closer : String) : Run NodeId := do
  let t ← s.toolkit
  let d ← Run.document
  match ← seekEnd t openers closer (placeholderBound d) ⟨0, false⟩ (d.nextAfter? s.node) with
  | some id => return id
  | none => throw (.structure (.noClosing s.command.name closer))

end Selection

end Stencil
