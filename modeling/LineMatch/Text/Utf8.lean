/-
  LineMatch.Text.Utf8 — text as bytes.

  `width` counts the bytes of one character. `decodeLossy` reads bytes as text: each
  longest prefix of a character that no byte completes becomes one replacement
  character, and so does each byte that begins none.
-/

namespace LineMatch.Text

/-- The bytes of a character in UTF-8. -/
def width (c : Char) : Nat :=
  if c.toNat < 0x80 then 1 else if c.toNat < 0x800 then 2 else if c.toNat < 0x10000 then 3 else 4

/-- The bytes of a text. -/
def size (cs : List Char) : Nat := cs.foldr (fun c n => width c + n) 0

def encodeChar (c : Char) : List Nat :=
  let n := c.toNat
  if n < 0x80 then [n]
  else if n < 0x800 then [0xC0 + n / 64, 0x80 + n % 64]
  else if n < 0x10000 then [0xE0 + n / 4096, 0x80 + n / 64 % 64, 0x80 + n % 64]
  else [0xF0 + n / 262144, 0x80 + n / 4096 % 64, 0x80 + n / 64 % 64, 0x80 + n % 64]

def encode (cs : List Char) : List Nat := cs.flatMap encodeChar

def replacement : Char := '\ufffd'

/-- A character begun: its bits so far, the bytes still owed and the range of the next. -/
structure Begun where
  bits : Nat
  owed : Nat
  low : Nat
  high : Nat

/-- What a byte that begins a character starts, if there is more than it to come. -/
def begin? (b : Nat) : Option Begun :=
  if 0xC2 ≤ b ∧ b ≤ 0xDF then some ⟨b - 0xC0, 1, 0x80, 0xBF⟩
  else if b = 0xE0 then some ⟨0, 2, 0xA0, 0xBF⟩
  else if b = 0xED then some ⟨0xD, 2, 0x80, 0x9F⟩
  else if 0xE1 ≤ b ∧ b ≤ 0xEF then some ⟨b - 0xE0, 2, 0x80, 0xBF⟩
  else if b = 0xF0 then some ⟨0, 3, 0x90, 0xBF⟩
  else if 0xF1 ≤ b ∧ b ≤ 0xF3 then some ⟨b - 0xF0, 3, 0x80, 0xBF⟩
  else if b = 0xF4 then some ⟨4, 3, 0x80, 0x8F⟩
  else none

/-- The characters a byte ends on its own, and the character it begins. -/
def startByte (b : Nat) : List Char × Option Begun :=
  if b < 0x80 then ([Char.ofNat b], none)
  else match begin? b with
    | some s => ([], some s)
    | none => ([replacement], none)

/-- Reads bytes after a character begun, or between characters. -/
def decodeFrom : Option Begun → List Nat → List Char
  | none, [] => []
  | some _, [] => [replacement]
  | none, b :: bs =>
    let (cs, s) := startByte b
    cs ++ decodeFrom s bs
  | some s, b :: bs =>
    if s.low ≤ b ∧ b ≤ s.high then
      let bits := s.bits * 64 + (b - 0x80)
      if s.owed = 1 then Char.ofNat bits :: decodeFrom none bs
      else decodeFrom (some ⟨bits, s.owed - 1, 0x80, 0xBF⟩) bs
    else
      let (cs, s) := startByte b
      replacement :: cs ++ decodeFrom s bs

def decodeLossy (bytes : List Nat) : String := String.ofList (decodeFrom none bytes)

end LineMatch.Text
