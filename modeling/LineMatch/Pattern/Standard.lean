/-
  LineMatch.Pattern.Standard — the engine that patterns are compiled with when a program runs.

  Names stand for what they do in Unicode 16. The limit is one on the memory of the program
  that a pattern is compiled to, with its repetitions unrolled. The program is not built
  here: `Expr.bytes` estimates its size, step by step and with the bytes of UTF-8 for
  characters that are not ASCII. No theorem rests on the estimate: what is proved of patterns
  is proved for every engine.
-/

import LineMatch.Pattern.Named
import LineMatch.Pattern.Parser

namespace LineMatch.Pattern

/-! ## Size -/

/-- About how many ranges of characters a set is. -/
def Property.rangeCount : Property → Nat
  | any => 1
  | categories cs => 70 * cs.length
  | script _ => 30
  | alphabetic => 730
  | blank => 10
  | listed ranges => ranges.length
  | _ => 650

def Class.rangeCount : Class → Nat
  | nothing => 0
  | range _ _ => 1
  | property p => p.rangeCount
  | word => 770
  | union a b | inter a b | diff a b | oneOf a b => a.rangeCount + b.rangeCount
  | negate a => a.rangeCount + 1
  -- A set closed under case already, or nearly, stays as large as it is.
  | blind a | asciiBlind a => if a.rangeCount < 10 then 2 * a.rangeCount else a.rangeCount

/-- Whether a class is a set of ASCII characters written as ranges. -/
def Class.isAscii : Class → Bool
  | nothing => true
  | range _ hi => hi.toNat < 0x80
  | union a b => a.isAscii && b.isAscii
  | inter a b | diff a b => a.isAscii || b.isAscii
  -- Two of the letters have counterparts that are not ASCII.
  | blind a => a.isAscii && ['K', 'S', 'k', 's'].all fun c => !a.has c
  | asciiBlind a => a.isAscii
  | _ => false

/-- The bytes that one step of a program takes. -/
def stepBytes : Nat := 32

def Class.bytes (k : Class) : Nat :=
  if k.isAscii then stepBytes + 8 * (k.rangeCount - 1) else stepBytes + 64 * k.rangeCount

def Expr.bytes : Expr → Nat
  | empty => stepBytes
  | one k => k.bytes
  | place _ => stepBytes
  | seq a b => a.bytes + b.bytes
  | choice a b => a.bytes + b.bytes + 2 * stepBytes
  | group a => a.bytes + 2 * stepBytes
  | times a least none => (max least 1) * a.bytes + stepBytes
  | times a least (some most) => least * a.bytes + (most - least) * (a.bytes + stepBytes) + stepBytes

/-- The bytes that a program may take. -/
def maxBytes : Nat := 10485760

/-! ## The engine -/

/-- The names of Unicode 16, without a limit. -/
def Engine.unlimited : Engine := ⟨Named.alone?, Named.valued?, fun _ => true⟩

/-- The names of Unicode 16, with a limit of 10 MiB. -/
def Engine.standard : Engine :=
  { Engine.unlimited with fits := fun text => (read? .unlimited text).all fun item => item.expr.bytes ≤ maxBytes }

end LineMatch.Pattern
