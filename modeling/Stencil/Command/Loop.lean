import Stencil.Run.Area
import Stencil.Command.Missing
/-!
The command that repeats a part of the document for the elements of a list. Each copy opens with a
placeholder that binds an element and its index and closes with one that releases them, so that what
stands between finds the element when the scan reaches it.
-/

namespace Stencil

/-- How a copy refers to its element: by a variable bound to it, or by moving the cursor onto it. -/
inductive ElementBinding where
  | ofVariable (name : String) (source : Source)
  | ofCursor (list restore : Path)

def Path.elementText (p : Path) (i : Nat) : String := (p.push (.index i)).display

namespace ElementBinding

def pushElement (name : String) (i : Nat) : Source → Command
  | .literal list =>
    ((Command.bare "Push").put "key" (.str name)).put "value" (((list.at? i).map Datum.toJson).getD .null)
  | .ofVariable p => ((Command.bare "Push").put "key" (.str name)).put "$value" (.str (p.elementText i))
  | .ofModel p => ((Command.bare "Push").put "key" (.str name)).put "@value" (.str (p.elementText i))

def pushIndex (name : String) (i : Nat) : Command :=
  ((Command.bare "Push").put "key" (.str name)).put "value" (.int i)

def release (name : String) : Command := (Command.bare "Pop").put "key" (.str name)

/-- A placeholder that moves the cursor to a place counted from the root. -/
def moveTo (place : String) : Command := (Command.bare "Model").put "value" (.str ("^" ++ place))

def markers (b : ElementBinding) (index : String) (i : Nat) : Area.CopyMarkers :=
  match b with
  | ofVariable name source =>
    ⟨[pushElement name i source, pushIndex index i], [release index, release name]⟩
  | ofCursor list restore =>
    ⟨[moveTo (list.elementText i), pushIndex index i], [release index, moveTo restore.display]⟩

end ElementBinding

namespace Handler

/-- The number of elements of a list; a list that is missing has none. -/
def countElements : Option Datum → Except RunError Nat
  | none => .ok 0
  | some (.list items) => .ok items.length
  | some v => if v.isNull then .ok 0 else .error (.value .loopOfOther)

/-- How the copies refer to their elements. A data path without a name for the element moves the
cursor. -/
def bindingOf (cursor : Path) (name? : Option String) : Source → Except RunError ElementBinding
  | source => match source, name? with
    | .ofModel p, none => match (cursor.join p).normalize with
      | .ok list => .ok (.ofCursor list cursor)
      | .error e => .error (.path e)
    | _, _ =>
      let name := name?.getD "item"
      match Scope.checkName name with
      | .ok _ => .ok (.ofVariable name source)
      | .error e => .error (.path e)

/-- Repeats what stands up to the closing placeholder, once for each element of a list. -/
def loop : Handler where
  names := ["For"]
  execute s := do
    match ← s.source? "value" with
    | none => throw (.structure (.missingParam "For" "value"))
    | some source =>
      let index := (s.str? "index").getD "index"
      Run.ofExcept .path (Scope.checkName index)
      let name? := s.str? "$as" <|> s.str? "as"
      let m ← Run.model
      let copies ← Run.ofExcept id (countElements (m.value? source))
      let binding ← Run.ofExcept id (bindingOf m.cursor name? source)
      let closing ← s.areaEnd ["For"] "EndFor"
      Run.log (.expanding copies index)
      let area ← Area.isolate s.node closing
      return .ofEdit (← area.replicate s.toolkit ((List.range copies).map (binding.markers index)))

end Handler

end Stencil
