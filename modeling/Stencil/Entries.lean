/-!
Ordered entries: a list of keys with values that remembers the order in which keys first came.
Putting a key again changes its value and leaves its place.
-/

namespace Stencil

variable {α β : Type}

abbrev Entries (α : Type) := List (String × α)

namespace Entries

def get? (key : String) : Entries α → Option α
  | [] => none
  | (k, v) :: es => if k = key then some v else get? key es

def has (key : String) (es : Entries α) : Bool := (es.get? key).isSome

/-- Puts a value under a key: in place when the key is there, at the end when it is not. -/
def put (key : String) (value : α) : Entries α → Entries α
  | [] => [(key, value)]
  | (k, v) :: es => if k = key then (k, value) :: es else (k, v) :: put key value es

def keys (es : Entries α) : List String := es.map Prod.fst

def ofPairs (ps : List (String × α)) : Entries α :=
  ps.foldl (fun es p ↦ put p.1 p.2 es) []

@[simp] theorem get?_nil (key : String) : get? key ([] : Entries α) = none := rfl

@[simp] theorem get?_put_self (key : String) (value : α) (es : Entries α) :
    get? key (put key value es) = some value := by
  induction es with
  | nil => simp [put, get?]
  | cons e es ih =>
    obtain ⟨k, v⟩ := e
    by_cases h : k = key <;> simp [put, get?, h, ih]

theorem get?_put_of_ne {key other : String} (h : key ≠ other) (value : α) (es : Entries α) :
    get? other (put key value es) = get? other es := by
  induction es with
  | nil => simp [put, get?, h]
  | cons e es ih =>
    obtain ⟨k, v⟩ := e
    by_cases hk : k = key
    · subst hk; simp [put, get?, h]
    · by_cases ho : k = other
      · subst ho; simp [put, get?, hk]
      · simp [put, get?, hk, ho, ih]

/-- A key keeps its place; a new key comes last. -/
theorem keys_put (key : String) (value : α) (es : Entries α) :
    keys (put key value es) = if key ∈ keys es then keys es else keys es ++ [key] := by
  induction es with
  | nil => simp [put, keys]
  | cons e es ih =>
    obtain ⟨k, v⟩ := e
    by_cases h : k = key
    · simp [put, keys, h]
    · have h' : ¬ key = k := fun e ↦ h e.symm
      simp only [keys] at ih
      by_cases hm : key ∈ List.map Prod.fst es <;> simp [put, keys, h, h', ih, hm]

end Entries

end Stencil
