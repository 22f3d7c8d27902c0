/-
  LineMatch.Number.Binary64 — nonnegative binary fractions of 53 bits, in exact arithmetic.

  A value is `mantissa · 2 ^ exponent`. `ofRatio` rounds a quotient to the nearest one,
  a tie to the even mantissa. `text` writes the fewest decimal digits that read back;
  of two such numerals the nearer is chosen. Digits stand positionally up to 16 places
  before the point and down to five after it, otherwise with an exponent.
-/

namespace LineMatch.Number

structure Binary64 where
  mantissa : Nat
  exponent : Int
  deriving Repr, DecidableEq, Inhabited

namespace Binary64

def zero : Binary64 := ⟨0, -1074⟩

/-- `n / d` to the nearest integer, a tie to the even one. -/
def roundDiv (n d : Nat) : Nat :=
  let q := n / d
  let r := n % d
  if 2 * r < d then q else if d < 2 * r then q + 1 else q + q % 2

/-- Numerator and denominator of `n / d · 2 ^ e`. -/
def scaled (n d : Nat) (e : Int) : Nat × Nat :=
  match e with
  | .ofNat k => (n * Nat.pow 2 k, d)
  | .negSucc k => (n, d * Nat.pow 2 (k + 1))

/-- The nearest value to `n / d`, or nothing when that is too large. -/
def ofRatio (n d : Nat) : Option Binary64 :=
  if n = 0 then some zero
  else
    let guess : Int := (n.log2 : Int) - d.log2 - 53
    let (gn, gd) := scaled n d (-guess)
    let e := max (-1074) (if gn / gd < Nat.pow 2 53 then guess else guess + 1)
    let (sn, sd) := scaled n d (-e)
    let m := roundDiv sn sd
    let (m, e) := if m = Nat.pow 2 53 then (Nat.pow 2 52, e + 1) else (m, e)
    if 971 < e then none else some ⟨m, e⟩

def mul (a b : Binary64) : Option Binary64 :=
  let (n, d) := scaled (a.mantissa * b.mantissa) 1 (a.exponent + b.exponent)
  ofRatio n d

/-- The quotient; `b` is not zero. -/
def div (a b : Binary64) : Option Binary64 :=
  let (n, d) := scaled a.mantissa b.mantissa (a.exponent - b.exponent)
  ofRatio n d

/-! ## The shortest numeral -/

/-- The ends of the interval of numbers that round to `x`, and the denominator they share. -/
def interval (x : Binary64) : Nat × Nat × Nat :=
  let below := if x.mantissa = Nat.pow 2 52 ∧ -1074 < x.exponent then 1 else 2
  let (lo, d) := scaled (4 * x.mantissa - below) 4 x.exponent
  let (hi, _) := scaled (4 * x.mantissa + 2) 4 x.exponent
  (lo, hi, d)

/-- Whether `k · 10 ^ p` rounds to `x`. -/
def reads (x : Binary64) (k : Nat) (p : Int) : Bool :=
  let (lo, hi, d) := interval x
  let (n, m) := match p with
    | .ofNat j => (k * Nat.pow 10 j, 1)
    | .negSucc j => (k, Nat.pow 10 (j + 1))
  if x.mantissa % 2 = 0 then lo * m ≤ n * d && n * d ≤ hi * m else lo * m < n * d && n * d < hi * m

/-- The greatest `p` with `10 ^ p ≤ n / d`, searched downwards from `p`. -/
def decimalExponent (n d : Nat) : Nat → Int → Int
  | 0, p => p
  | fuel + 1, p =>
    let fits : Bool := match p with
      | .ofNat j => Nat.pow 10 j * d ≤ n
      | .negSucc j => d ≤ n * Nat.pow 10 (j + 1)
    if fits then p else decimalExponent n d fuel (p - 1)

/-- The neighbour of `x` on the grid of multiples of `10 ^ p` that reads back; the nearer
    of two, and of two equally near the even one. -/
def onGrid (x : Binary64) (n d : Nat) (p : Int) : Option Nat :=
  let (n, d) := match p with
    | .ofNat j => (n, d * Nat.pow 10 j)
    | .negSucc j => (n * Nat.pow 10 (j + 1), d)
  let low := n / d
  match reads x low p && 0 < low, reads x (low + 1) p with
  | true, true => some (roundDiv n d)
  | true, false => some low
  | false, true => some (low + 1)
  | false, false => none

/-- Digits and the power of ten they are multiplied by, on the grid of `10 ^ p` or the
    first finer one that has a numeral that reads back. -/
def shortestFrom (x : Binary64) (n d : Nat) : Nat → Int → Nat × Int
  | 0, p => (n / d, p)
  | fuel + 1, p =>
    match onGrid x n d p with
    | some k => (k, p)
    | none => shortestFrom x n d fuel (p - 1)

/-- Drops trailing zeros. -/
def trim : Nat → Nat → Int → Nat × Int
  | 0, k, p => (k, p)
  | fuel + 1, k, p => if k % 10 = 0 ∧ k ≠ 0 then trim fuel (k / 10) (p + 1) else (k, p)

/-- The fewest digits and the power of ten they are multiplied by. -/
def shortest (x : Binary64) : Nat × Int :=
  let (n, d) := scaled x.mantissa 1 x.exponent
  let top := decimalExponent n d 700 309
  let (k, p) := shortestFrom x n d 18 top
  trim 20 k p

def zeros (n : Nat) : String := String.ofList (List.replicate n '0')

/-- The most places before the point of a numeral without an exponent. -/
def positionalLimit : Int := 16

/-- The numeral of the shortest digits. -/
def text (x : Binary64) : String :=
  if x.mantissa = 0 then "0.0"
  else
    let (k, p) := shortest x
    let digits := (toString k).toList
    let count : Int := digits.length
    let point := count + p
    let whole := String.ofList digits
    if 0 ≤ p ∧ point ≤ positionalLimit then whole ++ zeros p.toNat ++ ".0"
    else if 0 < point ∧ point ≤ positionalLimit then
      String.ofList (digits.take point.toNat) ++ "." ++ String.ofList (digits.drop point.toNat)
    else if -5 < point ∧ point ≤ 0 then "0." ++ zeros (-point).toNat ++ whole
    else
      let head := String.ofList (digits.take 1)
      let tail := digits.drop 1
      let fraction := if tail.isEmpty then "" else "." ++ String.ofList tail
      head ++ fraction ++ "e" ++ toString (point - 1)

end Binary64

end LineMatch.Number
