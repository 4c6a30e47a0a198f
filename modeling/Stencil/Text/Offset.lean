/-!
Positions in text. A position is counted in bytes of the UTF-8 form, so it is the width of the
characters before it. Searching cuts text at an occurrence and keeps both sides; the positions
follow from the widths of the parts.
-/

namespace Stencil.Text

def width : List Char → Nat
  | [] => 0
  | c :: s => c.utf8Size + width s

@[simp] theorem width_nil : width [] = 0 := rfl

@[simp] theorem width_cons (c : Char) (s : List Char) : width (c :: s) = c.utf8Size + width s := rfl

@[simp] theorem width_append (s t : List Char) : width (s ++ t) = width s + width t := by
  induction s with
  | nil => simp
  | cons c s ih => simp [ih, Nat.add_assoc]

/-- The text from byte `n` on; nothing when `n` lies inside a character or behind the end. -/
def dropBytes? : Nat → List Char → Option (List Char)
  | 0, s => some s
  | _ + 1, [] => none
  | n + 1, c :: s => if c.utf8Size ≤ n + 1 then dropBytes? (n + 1 - c.utf8Size) s else none

/-- The characters whose widths add up to `n` bytes, and what follows them. -/
def splitBytes? : Nat → List Char → Option (List Char × List Char)
  | 0, s => some ([], s)
  | _ + 1, [] => none
  | n + 1, c :: s =>
    if c.utf8Size ≤ n + 1 then
      (splitBytes? (n + 1 - c.utf8Size) s).map fun p ↦ (c :: p.1, p.2)
    else none

/-- What follows `p` in `s`, when `s` starts with `p`. -/
def stripPrefix? : List Char → List Char → Option (List Char)
  | [], s => some s
  | _ :: _, [] => none
  | p :: ps, c :: s => if p = c then stripPrefix? ps s else none

theorem eq_append_of_stripPrefix? {p s r : List Char} (h : stripPrefix? p s = some r) : s = p ++ r := by
  induction p generalizing s with
  | nil => simpa [stripPrefix?] using h
  | cons c p ih =>
    cases s with
    | nil => simp [stripPrefix?] at h
    | cons d s =>
      rw [stripPrefix?] at h
      split at h
      · next e => simp [← e, ih h]
      · simp at h

@[simp] theorem stripPrefix?_append (p r : List Char) : stripPrefix? p (p ++ r) = some r := by
  induction p with
  | nil => rfl
  | cons c p ih => simp [stripPrefix?, ih]

/-- Cuts text at the first occurrence of `p`: the characters before it and those behind it. -/
def breakOn? (p : List Char) : List Char → Option (List Char × List Char)
  | [] => if p.isEmpty then some ([], []) else none
  | c :: s => match stripPrefix? p (c :: s) with
    | some r => some ([], r)
    | none => (breakOn? p s).map fun q ↦ (c :: q.1, q.2)

theorem eq_append_of_breakOn? {p s a b : List Char} (h : breakOn? p s = some (a, b)) :
    s = a ++ p ++ b := by
  induction s generalizing a with
  | nil =>
    rw [breakOn?] at h
    split at h <;> simp_all
  | cons c s ih =>
    rw [breakOn?] at h
    split at h
    · next r hr =>
      obtain ⟨rfl, rfl⟩ := by simpa using h
      simpa using eq_append_of_stripPrefix? hr
    · obtain ⟨⟨a', b'⟩, hq, he⟩ := Option.map_eq_some_iff.1 h
      obtain ⟨rfl, rfl⟩ := by simpa using he
      simp [ih hq]

/-- The pieces of text between occurrences of one character. -/
def splitOn (sep : Char) : List Char → List (List Char)
  | [] => [[]]
  | c :: s => if c = sep then [] :: splitOn sep s else match splitOn sep s with
    | [] => [[c]]
    | p :: ps => (c :: p) :: ps

/-- Lines with their line feeds: every piece but the last ends with one, and no piece is empty. -/
def linesInclusive : List Char → List (List Char)
  | [] => []
  | c :: s => if c = '\n' then [c] :: linesInclusive s else match linesInclusive s with
    | [] => [[c]]
    | p :: ps => (c :: p) :: ps

/-- A line without its line feed, nor the carriage return before it. -/
def chomp (line : List Char) : List Char :=
  match line.reverse with
  | '\n' :: '\r' :: r => r.reverse
  | '\n' :: r => r.reverse
  | _ => line

/-- The lines of text, without their terminators. A final line feed ends the last line. -/
def lines (s : List Char) : List (List Char) := (linesInclusive s).map chomp

end Stencil.Text
