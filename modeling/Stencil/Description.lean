import Stencil.Renderer
/-!
Renderers, registries and caches in one line of words, for diagnosis.
-/

namespace Stencil

/-- A text in quotes, in a list. -/
def describeList (items : List String) : String :=
  "[" ++ ", ".intercalate (items.map Text.literal) ++ "]"

def Registry.describe (r : Registry) : String :=
  "CommandRegistry \x7b commands: " ++ describeList r.names ++ " \x7d"

def UnknownPolicy.describe : UnknownPolicy → String
  | .ignore => "Ignore"
  | .fail => "Fail"

def Settings.describe (s : Settings) : String :=
  "EngineConfig \x7b unknown_command: " ++ s.unknownCommand.describe ++
    ", fail_fast: " ++ Event.boolText s.failFast ++
    ", cache_ttl_ms: " ++ toString s.cacheTtl ++
    ", max_steps: " ++ toString s.maxSteps ++
    ", placeholder_prefix: " ++ Text.literal s.delimiters.opening ++
    ", placeholder_suffix: " ++ Text.literal s.delimiters.closing ++ " \x7d"

def Renderer.describe (r : Renderer) : String :=
  "Engine \x7b registry: " ++ r.registry.describe ++ ", config: " ++ r.settings.describe ++ " \x7d"

/-- A number of thousandths as a decimal fraction without zeros at its end. -/
def thousandths (n : Nat) : String :=
  let places := Decimal.padZeros 3 (Decimal.natText (n % 1000))
  let kept := Decimal.Picture.trimPlaces 0 places
  String.ofList (Decimal.natText (n / 1000) ++ if kept.isEmpty then [] else '.' :: kept)

/-- A time in milliseconds in words: in seconds from one second on. -/
def describeTime (ms : Nat) : String :=
  if ms = 0 then "0ns"
  else if ms < 1000 then toString ms ++ "ms"
  else thousandths ms ++ "s"

def Cache.describe {α : Type} (c : Cache α) : String :=
  "SelfClearingCache \x7b ttl: " ++ describeTime c.ttl ++ ", .. \x7d"

end Stencil
