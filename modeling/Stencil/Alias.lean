import Stencil.Payload.Command
/-!
Aliases: names that stand for commands. An alias may rename the parameters of a placeholder and
supply those it leaves out. A mark in front of a parameter says how its value is accessed and is
not part of its name.
-/

namespace Stencil

/-- An alias: its name, the command it stands for, defaults for parameters, and new names of
parameters. -/
structure Alias where
  key : String
  target : String
  defaults : Entries Json
  renames : Entries String

/-- The mark of a parameter and its name without it. -/
def splitMark (s : String) : String × String :=
  match s.toList with
  | c :: cs => if Payload.isMark c then (String.singleton c, String.ofList cs) else ("", s)
  | [] => ("", s)

namespace Alias

def ofCommand (key : String) (c : Command) : Alias := ⟨key, c.name, c.params, []⟩

/-- A parameter's name under an alias; its mark stays. -/
def rename (a : Alias) (s : String) : String :=
  let (mark, pure) := splitMark s
  match a.renames.get? pure with
  | some t => mark ++ t
  | none => s

/-- Whether a parameter of the same name is there, whatever its mark. -/
def isSpelled (params : Entries Json) (s : String) : Bool :=
  params.any fun p ↦ (splitMark p.1).2 == (splitMark s).2

/-- Puts a default where no parameter of its name is there. -/
def supply (params : Entries Json) (d : String × Json) : Entries Json :=
  if isSpelled params d.1 then params else params.put d.1 d.2

def params (a : Alias) (given : Entries Json) : Entries Json :=
  a.defaults.foldl supply (Entries.ofPairs (given.map fun p ↦ (a.rename p.1, p.2)))

def apply (a : Alias) (c : Command) : Command := ⟨a.target, a.params c.params, c.span?⟩

end Alias

abbrev Aliases := Entries Alias

namespace Aliases

/-- Defines an alias, in place of a former one of its name. -/
def define (as : Aliases) (a : Alias) : Aliases := as.put a.key a

def target (as : Aliases) (name : String) : String :=
  match as.get? name with
  | some a => a.target
  | none => name

/-- The command that a placeholder runs. An alias that stands for another alias is not followed. -/
def expand (as : Aliases) (c : Command) : Command :=
  match as.get? c.name with
  | some a => a.apply c
  | none => c

end Aliases

end Stencil
