/-
  LineMatch.Json.Cursor — a place in a JSON text, and reading forward from it.

  A reader takes a cursor and gives a value with the cursor after it, or the first
  fault it meets. Nothing is read twice: a fault is always the first one in text order.
  The scalars are read here: words, strings and numbers, each also in a form that is
  only skipped, which checks less.
-/

import LineMatch.Json.Fault
import LineMatch.Number.Integer
import LineMatch.Text.Utf8

namespace LineMatch.Json

open LineMatch.Number (Binary64 isDigit digitValue maxUnsigned)

/-- The text that is left, the line it begins on and the bytes before it on that line. -/
structure Cursor where
  rest : List Char
  line : Nat
  column : Nat
  deriving Repr

namespace Cursor

def ofText (text : String) : Cursor := ⟨text.toList, 1, 0⟩

/-- The cursor past `c`, which stood before `rest`. -/
def past (at_ : Cursor) (c : Char) (rest : List Char) : Cursor :=
  if c = '\n' then ⟨rest, at_.line + 1, 0⟩ else ⟨rest, at_.line, at_.column + Text.width c⟩

/-- The cursor past the next byte, for the place of a fault about it. -/
def pastByte (at_ : Cursor) : Cursor :=
  match at_.rest with
  | [] => at_
  | c :: rest => if c = '\n' then at_.past c rest else { at_ with column := at_.column + 1 }

end Cursor

abbrev Read (α : Type) := StateT Cursor (Except Fault) α

namespace Read

/-- Fails with the place reached. -/
def failHere {α : Type} (cause : SyntaxFault) : Read α := fun c => .error (.syntaxAt cause c.line c.column)

/-- Fails with the place of the next character. -/
def failNext {α : Type} (cause : SyntaxFault) : Read α :=
  fun c => .error (.syntaxAt cause c.pastByte.line c.pastByte.column)

def refuse {α : Type} (cause : ShapeFault) : Read α := fun _ => .error (.shape cause)

/-! ## Characters -/

/-- The next character, which is not taken. -/
def peek : Read (Option Char) := fun c => .ok (c.rest.head?, c)

/-- The next character, which is taken. -/
def next : Read (Option Char) := fun c =>
  match c.rest with
  | [] => .ok (none, c)
  | ch :: rest => .ok (some ch, c.past ch rest)

def drop : Read Unit := fun c =>
  match c.rest with
  | [] => .ok ((), c)
  | ch :: rest => .ok ((), c.past ch rest)

/-- Takes the characters that pass `p`, up to the first that does not. -/
def takeFrom (p : Char → Bool) (c : Cursor) : List Char → List Char × Cursor
  | [] => ([], { c with rest := [] })
  | ch :: rest =>
    if p ch then
      let (cs, c') := takeFrom p (c.past ch rest) rest
      (ch :: cs, c')
    else ([], { c with rest := ch :: rest })

def takeWhile (p : Char → Bool) : Read (List Char) := fun c => .ok (takeFrom p c c.rest)

def isSpace (c : Char) : Bool := c == ' ' || c == '\n' || c == '\t' || c == '\r'

/-- The next character that is no blank; blanks before it are taken. -/
def peekPastBlanks : Read (Option Char) := do
  let _ ← takeWhile isSpace
  peek

/-! ## Words -/

/-- The rest of a word whose beginning is taken. -/
def restOfWord : List Char → Read Unit
  | [] => pure ()
  | w :: ws => do
    match ← next with
    | none => failHere .endInValue
    | some c => if c = w then restOfWord ws else failHere .expectedWord

/-! ## Strings -/

/-- How a string is read: kept with surrogates paired, or skipped. -/
inductive StringUse where
  | keep | skip
  deriving DecidableEq, Repr

/-- Where reading stands inside a string. -/
inductive InString where
  | plain
  | escape
  /-- In the four bytes after `\u`; `high` is the leading surrogate before them. -/
  | hex (high : Option Nat) (bytes value : Nat) (good : Bool)
  /-- After a leading surrogate, before the backslash and before the `u` that must follow. -/
  | pairBackslash (high : Nat)
  | pairU (high : Nat)
  deriving Repr

def hexValue? (c : Char) : Option Nat :=
  if isDigit c then some (digitValue c)
  else if 'a' ≤ c ∧ c ≤ 'f' then some (c.toNat - 87)
  else if 'A' ≤ c ∧ c ≤ 'F' then some (c.toNat - 55)
  else none

def escaped? (c : Char) : Option Char :=
  match c with
  | '"' => some '"' | '\\' => some '\\' | '/' => some '/'
  | 'b' => some '\x08' | 'f' => some '\x0c' | 'n' => some '\n' | 'r' => some '\r' | 't' => some '\t'
  | _ => none

def isLeading (n : Nat) : Bool := 0xD800 ≤ n && n ≤ 0xDBFF

def isTrailing (n : Nat) : Bool := 0xDC00 ≤ n && n ≤ 0xDFFF

/-- What four complete hexadecimal digits give: a character, or the wish for a second half. -/
def hexDone (use : StringUse) (high : Option Nat) (n : Nat) : Except SyntaxFault (Option Char × InString) :=
  match use, high with
  | .skip, _ => .ok (none, .plain)
  | .keep, none =>
    if isTrailing n then .error .loneSurrogate
    else if isLeading n then .ok (none, .pairBackslash n)
    else .ok (some (Char.ofNat n), .plain)
  | .keep, some h =>
    if isTrailing n then .ok (some (Char.ofNat ((h - 0xD800) * 0x400 + (n - 0xDC00) + 0x10000)), .plain)
    else .error .loneSurrogate

/-- Reads to the closing quote. -/
def stringFrom (use : StringUse) (state : InString) (c : Cursor) :
    List Char → Except Fault (List Char × Cursor)
  | [] => .error (.syntaxAt .endInString c.line c.column)
  | ch :: rest =>
    let after := c.past ch rest
    let fail (cause : SyntaxFault) (p : Cursor) : Except Fault (List Char × Cursor) :=
      .error (.syntaxAt cause p.line p.column)
    match state with
    | .plain =>
      if ch = '"' then .ok ([], after)
      else if ch = '\\' then stringFrom use .escape after rest
      else if ch.toNat < 0x20 then fail .controlCharacter (if use = .keep then after else c)
      else (stringFrom use .plain after rest).map fun (cs, e) => (ch :: cs, e)
    | .escape =>
      if ch = 'u' then stringFrom use (.hex none 0 0 true) after rest
      else match escaped? ch with
        | some d => (stringFrom use .plain after rest).map fun (cs, e) => (d :: cs, e)
        | none => fail .invalidEscape (Cursor.pastByte { c with rest := ch :: rest })
    | .hex high bytes value good =>
      let bytes := bytes + Text.width ch
      let (value, good) := match hexValue? ch with
        | some d => (value * 16 + d, good)
        | none => (value, false)
      if bytes < 4 then stringFrom use (.hex high bytes value good) after rest
      else if !good then fail .invalidEscape after
      else match hexDone use high value with
        | .error cause => fail cause after
        | .ok (some d, state) => (stringFrom use state after rest).map fun (cs, e) => (d :: cs, e)
        | .ok (none, state) => stringFrom use state after rest
    | .pairBackslash high =>
      if ch = '\\' then stringFrom use (.pairU high) after rest
      else fail .unexpectedEndOfHexEscape (Cursor.pastByte { c with rest := ch :: rest })
    | .pairU high =>
      if ch = 'u' then stringFrom use (.hex (some high) 0 0 true) after rest
      else fail .unexpectedEndOfHexEscape (Cursor.pastByte { c with rest := ch :: rest })

/-- A string whose opening quote is taken. -/
def restOfString : Read String := fun c =>
  (stringFrom .keep .plain c c.rest).map fun (cs, e) => (String.ofList cs, e)

def skipString : Read Unit := fun c =>
  (stringFrom .skip .plain c c.rest).map fun (_, e) => ((), e)

/-! ## Numbers -/

/-- Digits taken into a number of 64 bits while it holds them, and how many more there were. -/
def significand (start : Nat) (digits : List Char) : Nat × Nat :=
  digits.foldl (fun (n, more) d =>
    let m := n * 10 + digitValue d
    if more = 0 ∧ m ≤ maxUnsigned then (m, 0) else (n, more + 1)) (start, 0)

/-- The fraction of a power of ten, of at most 308 places. -/
def powerOfTen (n : Nat) : Binary64 := (Binary64.ofRatio (Nat.pow 10 n) 1).getD .zero

/-- `x · 10 ^ e` with one rounding for each 308 places; nothing when it is too large. -/
def timesPower : Nat → Binary64 → Int → Option Binary64
  | 0, x, _ => some x
  | fuel + 1, x, e =>
    if e.natAbs ≤ 308 then
      if 0 ≤ e then x.mul (powerOfTen e.toNat) else x.div (powerOfTen e.natAbs)
    else if x.mantissa = 0 then some x
    else if 0 ≤ e then none
    else do timesPower fuel (← x.div (powerOfTen 308)) (e + 308)

def realOf (isNegative : Bool) (n : Nat) (e : Int) : Read Number := do
  match (Binary64.ofRatio n 1).bind fun x => timesPower 4 x e with
  | some x => pure (.real isNegative x)
  | none => failHere .numberOutOfRange

/-- The greatest exponent that is computed with. -/
def maxExponent : Nat := 2147483647

/-- The value of exponent digits after `acc`, or nothing when they pass the greatest exponent. -/
def exponentValue (acc : Nat) : List Char → Option Nat
  | [] => some acc
  | d :: ds =>
    let n := acc * 10 + digitValue d
    if n ≤ maxExponent then exponentValue n ds else none

/-- Whether an exponent is negative; its sign, if any, is taken. -/
def exponentSign : Read Bool := do
  match ← peek with
  | some '+' => drop *> pure false
  | some '-' => drop *> pure true
  | _ => pure false

/-- The exponent and what it makes of the significand `n`; the cursor is at the `e`. -/
def withExponent (isNegative : Bool) (n : Nat) (start : Int) : Read Number := do
  drop
  let down ← exponentSign
  match ← next with
  | none => failHere .endInValue
  | some d =>
    if !isDigit d then failHere .invalidNumber
    else do
      let digits ← takeWhile isDigit
      match exponentValue (digitValue d) digits with
      | some e => realOf isNegative n (if down then start - e else start + e)
      | none => if n ≠ 0 ∧ !down then failHere .numberOutOfRange else pure (.real isNegative .zero)

/-- The fraction and the exponent after it; the cursor is at the point. -/
def withFraction (isNegative : Bool) (n : Nat) (start : Int) : Read Number := do
  drop
  let digits ← takeWhile isDigit
  if digits.isEmpty then
    match ← peek with
    | some _ => failNext .invalidNumber
    | none => failNext .endInValue
  else
    let (n, more) := significand n digits
    let e := start - (digits.length - more : Nat)
    match ← peek with
    | some 'e' | some 'E' => withExponent isNegative n e
    | _ => realOf isNegative n e

/-- The digits after the first one, `d`; none follow a zero. -/
def digitsAfter (d : Char) : Read (List Char) := do
  if d = '0' then
    match ← peek with
    | some c => if isDigit c then failNext .invalidNumber else pure []
    | none => pure []
  else takeWhile isDigit

/-- The number of the digits `n`, of which `more` were left out, with what follows them. -/
def afterDigits (isNegative : Bool) (n more : Nat) : Read Number := do
  match ← peek with
  | some '.' => withFraction isNegative n more
  | some 'e' | some 'E' => withExponent isNegative n more
  | _ =>
    if more ≠ 0 then realOf isNegative n more
    else if !isNegative then pure (.nat n)
    else if n = 0 ∨ Nat.pow 2 63 < n then realOf true n 0
    else pure (.negative n)

/-- A number whose sign, if any, is taken. Whole numbers beyond 64 bits, and minus zero,
    are binary fractions. -/
def number (isNegative : Bool) : Read Number := do
  match ← next with
  | none => failHere .endInValue
  | some d =>
    if !isDigit d then failHere .invalidNumber
    else do
      let digits ← digitsAfter d
      let (n, more) := significand (digitValue d) digits
      afterDigits isNegative n more

/-- Exponent digits that are only checked; the cursor is at the `e`. -/
def skipExponent : Read Unit := do
  drop
  match ← peek with
  | some '+' | some '-' => drop
  | _ => pure ()
  match ← next with
  | some d => if isDigit d then discard (takeWhile isDigit) else failHere .invalidNumber
  | none => failHere .invalidNumber

def skipFraction : Read Unit := do
  drop
  let digits ← takeWhile isDigit
  if digits.isEmpty then failNext .invalidNumber
  else match ← peek with
    | some 'e' | some 'E' => skipExponent
    | _ => pure ()

/-- A number that is only checked; its sign, if any, is taken. -/
def skipNumber : Read Unit := do
  match ← next with
  | none => failHere .invalidNumber
  | some d =>
    if !isDigit d then failHere .invalidNumber
    else do
      if d = '0' then
        match ← peek with
        | some c => if isDigit c then failNext .invalidNumber
        | none => pure ()
      else discard (takeWhile isDigit)
      match ← peek with
      | some '.' => skipFraction
      | some 'e' | some 'E' => skipExponent
      | _ => pure ()

end Read

end LineMatch.Json
