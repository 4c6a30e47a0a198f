import Stencil.Entries
/-!
A cache that clears itself. The first entry put into an empty window arms a timer; when the timer
fires, all entries are dropped together, and the next entry arms another one. Windows are numbered,
so that a timer of a former window changes nothing when it fires late.
-/

namespace Stencil

/-- The state of a cache: its entries, the number of the current window, whether a flush is due,
and the windows whose timers have not fired yet, the latest first. -/
structure Cache (α : Type) where
  ttl : Nat
  entries : Entries α
  generation : Nat
  armed : Bool
  timers : List Nat

namespace Cache

variable {α ε : Type}

/-- The empty cache; `ttl` is the time that a timer waits, in milliseconds. -/
def ofTtl (ttl : Nat) : Cache α := ⟨ttl, [], 0, false, []⟩

def get? (c : Cache α) (key : String) : Option α := c.entries.get? key

def size (c : Cache α) : Nat := c.entries.length

/-- Puts an entry, and arms a timer when none is armed. -/
def put (c : Cache α) (key : String) (value : α) : Cache α :=
  let entries := c.entries.put key value
  if c.armed then { c with entries }
  else
    { c with entries, armed := true, generation := c.generation + 1,
             timers := (c.generation + 1) :: c.timers }

/-- The value under a key, computed and kept when it is not there. What fails is not kept. -/
def getOrTry (c : Cache α) (key : String) (compute : Unit → Except ε α) : Except ε α × Cache α :=
  match c.get? key with
  | some v => (.ok v, c)
  | none => match compute () with
    | .ok v => (.ok v, c.put key v)
    | .error e => (.error e, c)

def getOr (c : Cache α) (key : String) (compute : Unit → α) : α × Cache α :=
  match c.get? key with
  | some v => (v, c)
  | none =>
    let v := compute ()
    (v, c.put key v)

/-- Drops every entry now; pending timers become stale. -/
def clear (c : Cache α) : Cache α :=
  { c with entries := [], generation := c.generation + 1, armed := false }

/-- Fires the pending timer of a window. Only the timer of the current window drops entries. -/
def fire (c : Cache α) (generation : Nat) : Cache α :=
  let c := { c with timers := c.timers.erase generation }
  if c.armed && c.generation == generation then { c with entries := [], armed := false } else c

def flush (c : Cache α) : Cache α := c.timers.foldl fire c

end Cache

end Stencil
