import Stencil.Json.Record
import Stencil.Payload.Marker
/-!
Settings of a renderer, and their form in data text.
-/

namespace Stencil

/-- What becomes of placeholders that name no command: they stay as text, or they end the run. -/
inductive UnknownPolicy where
  | ignore
  | fail
  deriving DecidableEq, Repr

structure Settings where
  unknownCommand : UnknownPolicy
  failFast : Bool
  cacheTtl : Nat
  maxSteps : Nat
  delimiters : Delimiters
  deriving DecidableEq, Repr

namespace Settings

def default : Settings := ⟨.ignore, false, 1000, 100000, Delimiters.default⟩

def policyText : UnknownPolicy → String
  | .ignore => "ignore"
  | .fail => "fail"

def toJson (s : Settings) : Json :=
  .obj [("unknownCommand", .str (policyText s.unknownCommand)), ("failFast", .bool s.failFast),
    ("cacheTtlMs", .int s.cacheTtl), ("maxSteps", .int s.maxSteps),
    ("placeholderPrefix", .str s.delimiters.opening),
    ("placeholderSuffix", .str s.delimiters.closing)]

def policyOf? (name : String) : Option UnknownPolicy :=
  [.ignore, .fail].find? fun p ↦ policyText p = name

def readPolicyName (s : List Char) : Except Json.Fault (UnknownPolicy × List Char) :=
  match Json.skipGap s with
  | '"' :: r => do
    let (name, r) ← Json.readString r
    match policyOf? name with
    | some p => .ok (p, r)
    | none =>
      Json.refuse (.custom ("unknown variant `" ++ name ++ "`, expected `ignore` or `fail`")) r
  | r => Json.refuseKind "variant identifier" r

/-- What closes an object of one entry. -/
def closePolicy (p : UnknownPolicy) (s : List Char) : Except Json.Fault (UnknownPolicy × List Char) :=
  match Json.skipGap s with
  | [] => Json.refuse .endOfObject []
  | '}' :: r => .ok (p, r)
  | r => Json.refuse .expectedValue r

/-- Reads a policy: its name, or an object of its name and `null`. -/
def readPolicy (s : List Char) : Except Json.Fault (UnknownPolicy × List Char) :=
  match Json.skipGap s with
  | [] => Json.refuse .endOfValue []
  | '"' :: r => readPolicyName ('"' :: r)
  | '{' :: r => do
    let (p, r) ← readPolicyName r
    let (_, r) ← Json.readColon r
    match Json.skipGap r with
    | 'n' :: r => do
      let (_, r) ← Json.readWord .null ['u', 'l', 'l'] r
      closePolicy p r
    | r => Json.refuseKind "unit" r
  | r => Json.refuseNext .expectedValue r

def field {α : Type} (name : String) (read : List Char → Except Json.Fault (α × List Char))
    (put : Settings → α → Settings) : Json.Field Settings where
  name := name
  read s text := do
    let (a, r) ← read text
    .ok (put s a, r)

def form : Json.RecordForm Settings where
  title := "struct EngineConfig"
  fields := [
    field "unknownCommand" readPolicy fun s p ↦ { s with unknownCommand := p },
    field "failFast" Json.readBool fun s b ↦ { s with failFast := b },
    field "cacheTtlMs" (Json.readWordNumber "u64") fun s n ↦ { s with cacheTtl := n },
    field "maxSteps" (Json.readWordNumber "usize") fun s n ↦ { s with maxSteps := n },
    field "placeholderPrefix" Json.readText fun s t ↦ { s with delimiters := ⟨t, s.delimiters.closing⟩ },
    field "placeholderSuffix" Json.readText fun s t ↦ { s with delimiters := ⟨s.delimiters.opening, t⟩ }]

/-- The settings in data text; those that are left out are the default ones. -/
def parse (source : String) : Except String Settings := form.parse default source

end Settings

end Stencil
