import Stencil.Command.Missing
/-!
The commands that place an element: an image in place of the placeholder, and a copy of a named part
of the document.
-/

namespace Stencil

/-- The last name of a written path, if the path ends in one. -/
def fileName? (path : String) : Option String :=
  match ((Disk.namesOf path).filter fun n ↦ !(n == "" || n == ".")).getLast? with
  | some ".." => none
  | other => other

def Command.pixels? (c : Command) (key : String) : Except RunError (Option Nat) :=
  match c.param? key with
  | none => .ok none
  | some v => match v.nat? with
    | some n => if n < SizePolicy.wordSize then .ok (some n) else .error (.value (.notCount key))
    | none => .error (.value (.notCount key))

/-- Puts an image in place of the placeholder. Without a name it has that of its file. -/
def Handler.picture : Handler where
  names := ["Image"]
  execute s := do
    let handle ← s.requireStr "resource"
    let name := (s.str? "name").getD ((fileName? handle).getD handle)
    let width? ← Run.ofExcept id (s.command.pixels? "width")
    let height? ← Run.ofExcept id (s.command.pixels? "height")
    return .ofEdit (← s.insertImage handle name (SizePolicy.ofSides width? height?))

def nameAttr : String := "name"

def Document.named? (d : Document) (name : String) : Option NodeId :=
  (d.descendants d.root).find? fun id ↦ d.attr? id nameAttr == some name

namespace Handler

def findNamed (name : String) : Run NodeId := do
  match (← Run.document).named? name with
  | some id => return id
  | none => throw (.structure (.noElement name))

def findAnchor? : Option String → Run (Option NodeId)
  | none => return none
  | some name => return some (← findNamed name)

/-- Copies a named element under a new name, in front of another named element or behind the last
sibling. The placeholder goes first, so that the copy has none. -/
def copy : Handler where
  names := ["Clone"]
  execute s := do
    let name ← s.requireStr "name"
    let newName ← s.requireStr "newName"
    let element ← findNamed name
    let anchor? ← findAnchor? (s.str? "insertBefore")
    let result ← s.deletePlaceholder
    match (← Run.document).parent? element with
    | none => throw (.structure (.notCloneable name))
    | some parent =>
      let clone ← Run.editFor fun d ↦ d.deepClone element
      Run.change fun d ↦ d.setAttr clone nameAttr newName
      Run.edit fun d ↦ match anchor? with
        | some anchor => d.insertBefore anchor clone
        | none => d.appendChild parent clone
      Run.log (.clonedElement name newName)
      return .ofEdit result

end Handler

end Stencil
