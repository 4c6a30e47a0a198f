/-!
Text from bytes in the UTF-8 form. Bytes that are no such form are refused at the first character
that cannot be read, with the number of bytes that are certainly wrong there; none are certain when
the bytes end inside a character.
-/

namespace Stencil.Text

/-- Bytes that are no text: how many bytes before them are, and how many are certainly wrong. -/
structure Utf8Error where
  validUpTo : Nat
  wrong? : Option Nat
  deriving DecidableEq, Repr

def Utf8Error.message (e : Utf8Error) : String :=
  match e.wrong? with
  | some n =>
    "invalid utf-8 sequence of " ++ toString n ++ " bytes from index " ++ toString e.validUpTo
  | none => "incomplete utf-8 byte sequence from index " ++ toString e.validUpTo

def isTrailing (b : UInt8) : Bool := b.toNat / 64 == 2

def trailingBits (b : UInt8) : Nat := b.toNat % 64

/-- The bytes that may follow the first of a character of three or four bytes. What is written with
more bytes than needed, a surrogate and what lies beyond the last code point are kept out. -/
def secondInRange (first second : UInt8) : Bool :=
  let n := second.toNat
  let low := if first.toNat = 0xE0 then 0xA0 else if first.toNat = 0xF0 then 0x90 else 0x80
  let high := if first.toNat = 0xED then 0x9F else if first.toNat = 0xF4 then 0x8F else 0xBF
  decide (low ≤ n) && decide (n ≤ high)

/-- The first character of bytes and the number of its bytes, or the number of bytes that are
certainly wrong. -/
def decodeFirst (b : UInt8) (bs : List UInt8) : Except (Option Nat) (Char × Nat) :=
  let n := b.toNat
  if n < 0x80 then .ok (Char.ofNat n, 1)
  else if n < 0xC2 ∨ 0xF4 < n then .error (some 1)
  else if n < 0xE0 then match bs with
    | [] => .error none
    | c :: _ => if isTrailing c then .ok (Char.ofNat (n % 32 * 64 + trailingBits c), 2) else .error (some 1)
  else if n < 0xF0 then match bs with
    | [] => .error none
    | c :: r => if secondInRange b c then match r with
        | [] => .error none
        | d :: _ =>
          if isTrailing d then
            .ok (Char.ofNat ((n % 16 * 64 + trailingBits c) * 64 + trailingBits d), 3)
          else .error (some 2)
      else .error (some 1)
  else match bs with
    | [] => .error none
    | c :: r => if secondInRange b c then match r with
        | [] => .error none
        | d :: r => if isTrailing d then match r with
            | [] => .error none
            | e :: _ =>
              if isTrailing e then
                .ok (Char.ofNat (((n % 8 * 64 + trailingBits c) * 64 + trailingBits d) * 64 + trailingBits e), 4)
              else .error (some 3)
          else .error (some 2)
      else .error (some 1)

/-- The characters of bytes that start at a position. The first argument bounds their number. -/
def decodeFrom : Nat → Nat → List UInt8 → Except Utf8Error (List Char)
  | 0, _, _ => .ok []
  | _ + 1, _, [] => .ok []
  | n + 1, i, b :: bs => match decodeFirst b bs with
    | .error wrong? => .error ⟨i, wrong?⟩
    | .ok (c, k) => (decodeFrom n (i + k) (bs.drop (k - 1))).map (c :: ·)

def decode (bs : List UInt8) : Except Utf8Error String :=
  (decodeFrom bs.length 0 bs).map String.ofList

def encode (s : String) : List UInt8 := s.toUTF8.toList

end Stencil.Text
