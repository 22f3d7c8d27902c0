/-
  LineMatch.Number.Integer — decimal integers in bounded ranges.

  `natOf?` reads one or more ASCII digits; `signed?` an optional sign and digits, within
  64 signed bits; `unsigned?` an optional plus and digits, within 64 unsigned bits.
  Values are computed without a size limit and compared with the range afterwards.
-/

namespace LineMatch.Number

def isDigit (c : Char) : Bool := '0' ≤ c && c ≤ '9'

def digitValue (c : Char) : Nat := c.toNat - 48

/-- The number whose decimal digits follow those of `acc`. -/
def natFrom (acc : Nat) : List Char → Option Nat
  | [] => some acc
  | c :: cs => if isDigit c then natFrom (acc * 10 + digitValue c) cs else none

def natOf? : List Char → Option Nat
  | [] => none
  | cs => natFrom 0 cs

def maxSigned : Int := 9223372036854775807

def minSigned : Int := -9223372036854775808

def maxUnsigned : Nat := 18446744073709551615

/-- A sign and digits, without a size limit. -/
def integer? : List Char → Option Int
  | '+' :: cs => (natOf? cs).map Int.ofNat
  | '-' :: cs => (natOf? cs).map fun n => -Int.ofNat n
  | cs => (natOf? cs).map Int.ofNat

def signed? (cs : List Char) : Option Int :=
  (integer? cs).filter fun i => minSigned ≤ i && i ≤ maxSigned

def unsigned? (cs : List Char) : Option Nat :=
  let digits := match cs with
    | '+' :: rest => rest
    | _ => cs
  (natOf? digits).filter (· ≤ maxUnsigned)

end LineMatch.Number
