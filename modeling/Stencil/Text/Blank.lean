/-!
Blank characters and the trimming of text. A character is blank when it has the `White_Space`
property; trimming drops a longest run of blank characters at one end or at both.
-/

namespace Stencil.Text

/-- Code points with the `White_Space` property, as inclusive ranges. -/
def blankRanges : List (Nat × Nat) :=
  [(0x9, 0xD), (0x20, 0x20), (0x85, 0x85), (0xA0, 0xA0), (0x1680, 0x1680), (0x2000, 0x200A),
    (0x2028, 0x2029), (0x202F, 0x202F), (0x205F, 0x205F), (0x3000, 0x3000)]

def isBlank (c : Char) : Bool :=
  blankRanges.any fun r ↦ decide (r.1 ≤ c.toNat) && decide (c.toNat ≤ r.2)

def trimStart (s : List Char) : List Char := s.dropWhile isBlank

def trimEnd : List Char → List Char
  | [] => []
  | c :: s => match trimEnd s with
    | [] => if isBlank c then [] else [c]
    | t => c :: t

def trim (s : List Char) : List Char := trimEnd (trimStart s)

def allBlank (s : List Char) : Bool := s.all isBlank

@[simp] theorem trimStart_nil : trimStart [] = [] := rfl

@[simp] theorem trimEnd_nil : trimEnd [] = [] := rfl

theorem trimStart_cons_of_blank {c : Char} {s : List Char} (h : isBlank c = true) :
    trimStart (c :: s) = trimStart s := by simp [trimStart, h]

theorem trimStart_cons_of_not_blank {c : Char} {s : List Char} (h : isBlank c = false) :
    trimStart (c :: s) = c :: s := by simp [trimStart, h]

end Stencil.Text
