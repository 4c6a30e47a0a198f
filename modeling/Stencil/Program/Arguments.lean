import Stencil.Settings
/-!
Command lines. A word that starts with a dash is a switch or a cluster of one-letter switches; any
other word is the name of a command, or a path once the command is known. A switch that takes a
value finds it behind an equals sign, right behind its letter, or in the next word. Two dashes alone
end the switches.
-/

namespace Stencil

inductive ArgumentFault where
  | noCommand
  | unknownCommand (name : String)
  | unknownSwitch (name : String)
  | repeated (name : String)
  | noValue (name : String)
  | needlessValue (name : String)
  | badValue (name value : String)
  | extra (word : String)
  deriving DecidableEq, Repr

def ArgumentFault.message : ArgumentFault → String
  | noCommand => "a command is required"
  | unknownCommand name => "unrecognized command '" ++ name ++ "'"
  | unknownSwitch name => "unexpected argument '" ++ name ++ "' found"
  | repeated name => "the argument '" ++ name ++ "' cannot be used multiple times"
  | noValue name => "a value is required for '" ++ name ++ "' but none was supplied"
  | needlessValue name => "unexpected value for '" ++ name ++ "' found; no more were expected"
  | badValue name value => "invalid value '" ++ value ++ "' for '" ++ name ++ "'"
  | extra word => "unexpected argument '" ++ word ++ "' found"

/-- Why a command line asks for no work: it asks for help or for the version, or it is faulty. -/
inductive Notice where
  | help
  | version
  | faulty (fault : ArgumentFault)
  deriving DecidableEq, Repr

inductive SwitchEffect (α : Type) where
  | flag (f : α → α)
  | value (f : String → α → Except Notice α)
  | notice (n : Notice)

/-- A switch: its name, its letter, if it has one, and what it does. -/
structure Switch (α : Type) where
  name : String
  letter? : Option Char
  effect : SwitchEffect α

inductive ArgumentWord where
  | separator
  | long (name : String) (value? : Option String)
  | cluster (letters : List Char)
  | plain (text : String)
  deriving DecidableEq, Repr

/-- The name of a long switch, and the value behind its equals sign. -/
def ArgumentWord.ofLong (s : List Char) : ArgumentWord :=
  let name := String.ofList (s.takeWhile (· ≠ '='))
  match s.dropWhile (· ≠ '=') with
  | [] => long name none
  | _ :: value => long name (some (String.ofList value))

def ArgumentWord.ofText (text : String) : ArgumentWord :=
  match text.toList with
  | ['-', '-'] => separator
  | '-' :: '-' :: s => ofLong s
  | ['-'] => plain text
  | '-' :: s => cluster s
  | _ => plain text

/-- Options read so far, the names of the switches that gave them, and the words not read yet. -/
structure ArgumentReading (α : Type) where
  options : α
  seen : List String
  rest : List String

namespace Switch

variable {α : Type}

/-- The next word, when it can be a value. -/
def nextValue? : List String → Option (String × List String)
  | [] => none
  | w :: ws => match ArgumentWord.ofText w with
    | .plain text => some (text, ws)
    | _ => none

def apply (s : Switch α) (shown : String) (value? : Option String) (r : ArgumentReading α) :
    Except Notice (ArgumentReading α) :=
  if r.seen.contains s.name then .error (.faulty (.repeated shown))
  else match s.effect, value? with
    | .notice n, none => .error n
    | .notice _, some _ => .error (.faulty (.needlessValue shown))
    | .flag f, none => .ok ⟨f r.options, s.name :: r.seen, r.rest⟩
    | .flag _, some _ => .error (.faulty (.needlessValue shown))
    | .value f, some v => do
      .ok ⟨← f v r.options, s.name :: r.seen, r.rest⟩
    | .value f, none => match nextValue? r.rest with
      | none => .error (.faulty (.noValue shown))
      | some (v, rest) => do
        .ok ⟨← f v r.options, s.name :: r.seen, rest⟩

def applyLong (switches : List (Switch α)) (name : String) (value? : Option String)
    (r : ArgumentReading α) : Except Notice (ArgumentReading α) :=
  match switches.find? fun s ↦ s.name == name with
  | none => .error (.faulty (.unknownSwitch ("--" ++ name)))
  | some s => s.apply ("--" ++ name) value? r

def clusterValue? : List Char → Option String
  | [] => none
  | '=' :: value => some (String.ofList value)
  | value => some (String.ofList value)

/-- Applies the switches of a cluster. The first that takes a value takes what is left of it. -/
def applyCluster (switches : List (Switch α)) : List Char → ArgumentReading α →
    Except Notice (ArgumentReading α)
  | [], r => .ok r
  | c :: cs, r =>
    let shown := "-" ++ String.singleton c
    match switches.find? fun s ↦ s.letter? == some c with
    | none => .error (.faulty (.unknownSwitch shown))
    | some s => match s.effect with
      | .value _ => s.apply shown (clusterValue? cs) r
      | _ => do
        let r ← s.apply shown none r
        applyCluster switches cs r

def readUntilPlain (switches : List (Switch α)) : Nat → ArgumentReading α →
    Except Notice (ArgumentReading α)
  | 0, r => .ok r
  | n + 1, r => match r.rest with
    | [] => .ok r
    | w :: ws => match ArgumentWord.ofText w with
      | .separator => .ok r
      | .plain _ => .ok r
      | .long name value? => do
        readUntilPlain switches n (← applyLong switches name value? { r with rest := ws })
      | .cluster cs => do
        readUntilPlain switches n (← applyCluster switches cs { r with rest := ws })

/-- Takes plain words, all of which count as such. -/
def takeAll (take : String → α → Except Notice α) : List String → α → Except Notice α
  | [], a => .ok a
  | w :: ws, a => do takeAll take ws (← take w a)

def readAll (switches : List (Switch α)) (take : String → α → Except Notice α) :
    Nat → ArgumentReading α → Except Notice α
  | 0, r => .ok r.options
  | n + 1, r => do
    let r ← readUntilPlain switches (r.rest.length + 1) r
    match r.rest with
    | [] => .ok r.options
    | w :: ws => match ArgumentWord.ofText w with
      | .separator => takeAll take ws r.options
      | _ => do
        readAll switches take n { r with options := ← take w r.options, rest := ws }

end Switch

/-- What rendering is asked for. Paths are as they were written. -/
structure RenderOptions where
  template? : Option String
  data? : Option String
  out? : Option String
  resources? : Option String
  failFast : Bool
  unknown? : Option UnknownPolicy
  report? : Option String
  deriving DecidableEq, Repr

inductive Order where
  | check (template? : Option String)
  | render (options : RenderOptions)
  deriving DecidableEq, Repr

/-- A command line: the work, and whether the log is to say more than usual. -/
structure Arguments where
  verbose : Bool
  order : Order
  deriving DecidableEq, Repr

def Order.paths : Order → List String
  | check template? => template?.toList
  | render o => [o.template?, o.data?, o.out?, o.resources?, o.report?].filterMap id

namespace Arguments

structure Draft (α : Type) where
  verbose : Bool
  options : α

def commonSwitches (α : Type) : List (Switch (Draft α)) :=
  [⟨"verbose", some 'v', .flag fun d ↦ { d with verbose := true }⟩, ⟨"help", some 'h', .notice .help⟩]

def pathSwitch {α : Type} (name : String) (letter? : Option Char) (put : String → α → α) :
    Switch (Draft α) where
  name := name
  letter? := letter?
  effect := .value fun v d ↦
    if v.isEmpty then .error (.faulty (.noValue ("--" ++ name)))
    else .ok { d with options := put v d.options }

/-- Takes the path of a template, of which there is one at most. -/
def takeTemplate {α : Type} (get? : α → Option String) (put : String → α → α) (w : String)
    (d : Draft α) : Except Notice (Draft α) :=
  if (get? d.options).isSome then .error (.faulty (.extra w))
  else if w.isEmpty then .error (.faulty (.noValue "[TEMPLATE]"))
  else .ok { d with options := put w d.options }

def plainRender : RenderOptions := ⟨none, none, none, none, false, none, none⟩

def takeUnknown (v : String) (d : Draft RenderOptions) : Except Notice (Draft RenderOptions) :=
  match Settings.policyOf? v with
  | some p => .ok { d with options.unknown? := some p }
  | none => .error (.faulty (.badValue "--unknown" v))

def renderSwitches : List (Switch (Draft RenderOptions)) :=
  commonSwitches RenderOptions ++
    [pathSwitch "data" (some 'd') fun v o ↦ { o with data? := some v },
      pathSwitch "out" (some 'o') fun v o ↦ { o with out? := some v },
      pathSwitch "resources" (some 'r') fun v o ↦ { o with resources? := some v },
      ⟨"fail-fast", none, .flag fun d ↦ { d with options.failFast := true }⟩,
      ⟨"unknown", none, .value takeUnknown⟩,
      pathSwitch "report" none fun v o ↦ { o with report? := some v }]

def readCommand {α : Type} (switches : List (Switch (Draft α))) (get? : α → Option String)
    (put : String → α → α) (verbose : Bool) (options : α) (words : List String) :
    Except Notice (Draft α) :=
  Switch.readAll switches (takeTemplate get? put) (words.length + 1) ⟨⟨verbose, options⟩, [], words⟩

def parse (words : List String) : Except Notice Arguments := do
  let switches := commonSwitches Unit ++ [⟨"version", some 'V', .notice .version⟩]
  let r ← Switch.readUntilPlain switches (words.length + 1) ⟨⟨false, ()⟩, [], words⟩
  let verbose := r.options.verbose
  match r.rest with
  | [] => .error (.faulty .noCommand)
  | "check" :: ws =>
    let d ← readCommand (commonSwitches (Option String)) id (fun w _ ↦ some w) verbose none ws
    .ok ⟨d.verbose, .check d.options⟩
  | "render" :: ws =>
    let d ← readCommand renderSwitches RenderOptions.template?
      (fun w o ↦ { o with template? := some w }) verbose plainRender ws
    .ok ⟨d.verbose, .render d.options⟩
  | ["help"] | ["help", "check"] | ["help", "render"] | ["help", "help"] => .error .help
  | w :: _ => .error (.faulty (.unknownCommand w))

end Arguments

end Stencil
