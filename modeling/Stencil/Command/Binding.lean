import Stencil.Command.Missing
/-!
Commands that change variables, the cursor and the aliases, and leave the document alone.
-/

namespace Stencil

namespace Handler

/-- Binds a variable; a value that is not there counts as `null`, so that bindings and releases
stay in pairs. -/
def push : Handler where
  names := ["Push"]
  execute s := do
    let key ← s.requireStr "key"
    let value? ← s.value? "value"
    Run.log (.pushed key)
    Run.push key (value?.getD .null)
    return .consumed

def pop : Handler where
  names := ["Pop"]
  execute s := do
    let key ← s.requireStr "key"
    Run.log (.popped key)
    let m ← Run.model
    match m.scope.pop? key with
    | some (_, scope) =>
      Run.setModel { m with scope }
      return .consumed
    | none => throw (.structure (.unbound key))

def cursor : Handler where
  names := ["Model"]
  execute s := do
    let text ← s.requireStr "value"
    Run.enter (← Run.ofExcept .path (Path.parse text))
    return .consumed

end Handler

namespace Command

def object? (c : Command) (key : String) : Except RunError (Option (Entries Json)) :=
  match c.param? key with
  | none => .ok none
  | some .null => .ok none
  | some (.obj es) => .ok (some es)
  | some _ => .error (.value (.notObject key))

def renames : Entries Json → Except RunError (Entries String)
  | [] => .ok []
  | (old, .str new) :: es => (renames es).map ((old, new) :: ·)
  | (old, _) :: _ => .error (.value (.notRename old))

def definedAlias (c : Command) : Except RunError Alias := do
  let key ← c.requireStr "key"
  let target ← c.requireStr "replaceKey"
  if key = target then .error (.value (.selfAlias key))
  else
    let defaults ← c.object? "attributes"
    let replacements ← c.object? "attrReplacements"
    let renames ← renames (replacements.getD [])
    .ok ⟨key, target, defaults.getD [], renames⟩

end Command

namespace Handler

/-- Defines an alias for the rest of the run. -/
def definition : Handler where
  names := ["Alias"]
  execute s := do
    let a ← Run.ofExcept id s.command.definedAlias
    Run.log (.aliasDefined a.key a.target)
    modify fun r ↦ { r with aliases := r.aliases.define a }
    return .consumed

end Handler

end Stencil
