import Stencil.Payload.Marker
/-!
Inspection of a template without rendering it. Every marker is listed with its line, every payload
is read, and blocks are matched with their ends. What stands in an ignored region is listed and not
looked at any further, and names that the template itself defines as aliases are known from there on.
-/

namespace Stencil

/-- A marker of a template: the number of its line, counted from one, its text, its payload, and the
byte of the template at which the payload starts. -/
structure Site where
  line : Nat
  marker : String
  payload : List Char
  start : Nat
  deriving DecidableEq, Repr

namespace Site

def ofLine (d : Delimiters) (number start : Nat) (line : List Char) : List Site :=
  (d.markers line).map fun m ↦
    ⟨number, String.ofList (d.enclose m.payload), m.payload, start + (d.payloadSpan m).start⟩

/-- The markers of lines, from left to right and from top to bottom. -/
def ofLines (d : Delimiters) : Nat → Nat → List (List Char) → List Site
  | _, _, [] => []
  | number, start, line :: lines =>
    ofLine d number start line ++ ofLines d (number + 1) (start + Text.width line) lines

def ofTemplate (d : Delimiters) (source : String) : List Site :=
  ofLines d 1 0 (Text.linesInclusive source.toList)

end Site

/-- A block whose end has not come yet: the command that ends it, and where it was opened. -/
structure OpenBlock where
  closer : String
  first : Site
  deriving DecidableEq, Repr

/-- A block: the command that ends it, and the markers at both ends. -/
structure Block where
  closer : String
  first : Site
  last : Site
  deriving DecidableEq, Repr

inductive Warning where
  | unknownCommand (line : Nat) (name : String)
  | notIgnoring (line : Nat)
  | wrongEnd (line : Nat) (name : String) (opened : Nat) (expected : String)
  | notOpened (line : Nat) (name : String)
  | notClosed (opened : Nat) (expected : String)
  deriving DecidableEq, Repr

def Warning.message : Warning → String
  | unknownCommand line name => "line " ++ toString line ++ ": unknown command `" ++ name ++ "`"
  | notIgnoring line => "line " ++ toString line ++ ": `EndIgnore` without `Ignore`"
  | wrongEnd line name opened expected =>
    "line " ++ toString line ++ ": `" ++ name ++ "` closes the block opened on line " ++ toString opened ++
      ", expected `" ++ expected ++ "`"
  | notOpened line name => "line " ++ toString line ++ ": `" ++ name ++ "` without an opening block"
  | notClosed opened expected =>
    "line " ++ toString opened ++ ": block is never closed with `" ++ expected ++ "`"

/-- How far an inspection has come. Open blocks are listed from the innermost outwards, all else in
the order in which it was met. -/
structure Inspection where
  errors : List Payload.Error
  warnings : List Warning
  blocks : List Block
  opened : List OpenBlock
  aliases : Entries String
  ignoring : Bool

namespace Inspection

def empty : Inspection := ⟨[], [], [], [], [], false⟩

def closer? (name : String) : Option String :=
  if name = "For" then some "EndFor" else if name = "If" then some "EndIf" else none

variable (i : Inspection)

/-- What a name stands for. An alias of an alias is not followed. -/
def target (name : String) : String := (i.aliases.get? name).getD name

def warn (w : Warning) : Inspection := { i with warnings := i.warnings ++ [w] }

def openBlock (closer : String) (s : Site) : Inspection := { i with opened := ⟨closer, s⟩ :: i.opened }

/-- Ends the innermost block. -/
def closeBlock (name : String) (s : Site) : Inspection :=
  match i.opened with
  | [] => i.warn (.notOpened s.line name)
  | b :: rest =>
    let j := { i with opened := rest }
    if b.closer = name then { j with blocks := j.blocks ++ [⟨name, b.first, s⟩] }
    else j.warn (.wrongEnd s.line name b.first.line b.closer)

/-- Defines the alias that a command asks for, if it names both sides. -/
def define (c : Command) : Inspection :=
  match c.str? "key", c.str? "replaceKey" with
  | some key, some target => { i with aliases := i.aliases.put key target }
  | _, _ => i

/-- Meets a command outside of ignored regions, under the name that it stands for. -/
def meet (s : Site) (c : Command) (name : String) : Inspection :=
  match closer? name with
  | some closer => i.openBlock closer s
  | none =>
    if name = "Ignore" then { i with ignoring := true }
    else if name = "Alias" then i.define c
    else if name = "EndIgnore" then i.warn (.notIgnoring s.line)
    else if name = "EndFor" ∨ name = "EndIf" then i.closeBlock name s
    else i

def passCommand (known : String → Bool) (s : Site) (c : Command) : Inspection :=
  let name := i.target c.name
  if i.ignoring then { i with ignoring := name != "EndIgnore" }
  else
    let j := if known name then i else i.warn (.unknownCommand s.line name)
    j.meet s c name

def passSite (known : String → Bool) (s : Site) : Inspection :=
  match Payload.read s.payload with
  | .ok commands => commands.foldl (fun j c ↦ j.passCommand known s c) i
  | .error e => if i.ignoring then i else { i with errors := i.errors ++ [e.shift s.start] }

/-- Ends an inspection: blocks still open are never closed. -/
def finish : Inspection :=
  { i with warnings := i.warnings ++ i.opened.reverse.map fun b ↦ .notClosed b.first.line b.closer }

def isClean : Bool := i.errors.isEmpty && i.warnings.isEmpty

def ofSites (known : String → Bool) (sites : List Site) : Inspection :=
  (sites.foldl (fun i s ↦ i.passSite known s) empty).finish

/-- Inspects a template; `known` says which commands there are. -/
def ofTemplate (known : String → Bool) (d : Delimiters) (source : String) : Inspection :=
  ofSites known (Site.ofTemplate d source)

end Inspection

end Stencil
