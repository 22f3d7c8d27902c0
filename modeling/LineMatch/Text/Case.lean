/-
  LineMatch.Text.Case — capitals and small letters, by the full Unicode mappings.

  A character's counterpart may be several characters (`lower`, `upper`). Mapping a
  whole text to small letters looks at one context: a capital sigma at the end of a
  word becomes the final form (`endsWord`). Two characters that differ in case alone
  share an orbit under the one-character mappings (`orbit`).
-/

import LineMatch.Text.Category
import LineMatch.Text.CaseTable

namespace LineMatch.Text

/-! ## One character -/

/-- The image of `n` under the first run that has one; runs stand in increasing order. -/
def imageIn (n : Nat) : List CaseTable.Run → Option Nat
  | [] => none
  | r :: rest =>
    if n < r.first then none
    else match r.image n with
      | some m => some m
      | none => imageIn n rest

/-- The small letter of `c` when it is one character. -/
def lowerOne (c : Char) : Option Char := (imageIn c.toNat CaseTable.lower).map Char.ofNat

/-- The capital of `c` when it is one character. -/
def upperOne (c : Char) : Option Char := (imageIn c.toNat CaseTable.upper).map Char.ofNat

/-- The small form of `c`, wherever it stands. -/
def lower (c : Char) : List Char :=
  match lowerOne c with
  | some d => [d]
  | none =>
    match CaseTable.lowerSeveral.lookup c.toNat with
    | some ns => ns.map Char.ofNat
    | none => [c]

/-- The capital form of `c`. -/
def upper (c : Char) : List Char :=
  match upperOne c with
  | some d => [d]
  | none =>
    match CaseTable.upperSeveral.lookup c.toNat with
    | some ns => ns.map Char.ofNat
    | none => [c]

/-! ## Cased and case-ignorable characters -/

/-- Whether `n` lies in one of the closed ranges. -/
def inRanges (n : Nat) (ranges : List (Nat × Nat)) : Bool :=
  ranges.any fun r => r.1 ≤ n && n ≤ r.2

/-- Capitals that are no letters: numerals, circled and squared letters. -/
def otherCapitals : List (Nat × Nat) :=
  [(0x2160, 0x216F), (0x24B6, 0x24CF), (0x1F130, 0x1F149), (0x1F150, 0x1F169), (0x1F170, 0x1F189)]

/-- Small forms that are no small letters: ordinals, modifiers, numerals, circled letters. -/
def otherSmall : List (Nat × Nat) :=
  [(0xAA, 0xAA), (0xBA, 0xBA), (0x2B0, 0x2B8), (0x2C0, 0x2C1), (0x2E0, 0x2E4), (0x345, 0x345), (0x37A, 0x37A),
   (0x10FC, 0x10FC), (0x1D2C, 0x1D6A), (0x1D78, 0x1D78), (0x1D9B, 0x1DBF), (0x2071, 0x2071), (0x207F, 0x207F),
   (0x2090, 0x209C), (0x2170, 0x217F), (0x24D0, 0x24E9), (0x2C7C, 0x2C7D), (0xA69C, 0xA69D), (0xA770, 0xA770),
   (0xA7F2, 0xA7F4), (0xA7F8, 0xA7F9), (0xAB5C, 0xAB5F), (0xAB69, 0xAB69), (0x10780, 0x10780),
   (0x10783, 0x10785), (0x10787, 0x107B0), (0x107B2, 0x107BA), (0x1E030, 0x1E06D)]

def isCapital (c : Char) : Bool := category c == .lu || inRanges c.toNat otherCapitals

def isSmall (c : Char) : Bool := category c == .ll || inRanges c.toNat otherSmall

def isCased (c : Char) : Bool := category c == .lt || isCapital c || isSmall c

/-- Marks inside words: apostrophes, full stops, colons and middle dots. -/
def wordPunctuation : List (Nat × Nat) :=
  [(0x27, 0x27), (0x2E, 0x2E), (0x3A, 0x3A), (0xB7, 0xB7), (0x387, 0x387), (0x55F, 0x55F), (0x5F4, 0x5F4),
   (0x2018, 0x2019), (0x2024, 0x2024), (0x2027, 0x2027), (0xFE13, 0xFE13), (0xFE52, 0xFE52), (0xFE55, 0xFE55),
   (0xFF07, 0xFF07), (0xFF0E, 0xFF0E), (0xFF1A, 0xFF1A)]

def isCaseIgnorable (c : Char) : Bool :=
  match category c with
  | .mn | .me | .cf | .lm | .sk => true
  | _ => inRanges c.toNat wordPunctuation

/-! ## A whole text -/

/-- Whether the first character that is not case-ignorable is cased. -/
def startsCased (cs : List Char) : Bool :=
  match cs.dropWhile isCaseIgnorable with
  | c :: _ => isCased c
  | [] => false

/-- A capital sigma between `before` (nearest character first) and `after` ends a word
    of more than itself. -/
def endsWord (before after : List Char) : Bool := startsCased before && !startsCased after

/-- The small forms of the characters that follow `before` (nearest character first). -/
def lowerFrom (before : List Char) : List Char → List Char
  | [] => []
  | c :: cs =>
    (if c = 'Σ' then [if endsWord before cs then 'ς' else 'σ'] else lower c) ++ lowerFrom (c :: before) cs

def toLower (text : String) : String := String.ofList (lowerFrom [] text.toList)

def toUpper (text : String) : String := String.ofList (text.toList.flatMap upper)

/-! ## Characters that differ in case alone -/

/-- Pairs of characters with the same capital form of several characters. -/
def sameCapitals : List (Nat × Nat) := [(0x1FD3, 0x390), (0x1FE3, 0x3B0), (0xFB05, 0xFB06)]

/-- The characters one mapping away from `c`, in either direction. The dotted capital
    and the dotless small letter have no counterparts here. -/
def counterparts (c : Char) : List Char :=
  if c.toNat = 0x130 ∨ c.toNat = 0x131 then []
  else
    let n := c.toNat
    let found := CaseTable.lower.flatMap (fun r => (r.image n).toList ++ (r.preimage n).toList) ++
      CaseTable.upper.flatMap (fun r => (r.image n).toList ++ (r.preimage n).toList) ++
      sameCapitals.flatMap (fun p => if p.1 = n then [p.2] else if p.2 = n then [p.1] else [])
    (found.filter (fun m => m != 0x130 && m != 0x131)).map Char.ofNat

/-- `c` and every character that differs from it in case alone. -/
def orbit (c : Char) : List Char :=
  let grow (cs : List Char) : List Char := (cs ++ cs.flatMap counterparts).eraseDups
  grow (grow (grow [c]))

end LineMatch.Text
