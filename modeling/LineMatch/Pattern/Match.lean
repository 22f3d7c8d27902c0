/-
  LineMatch.Pattern.Match — where a pattern matches in a text.

  The places of a text of `n` characters are the numbers `0 … n`; a set of places is a
  number with those bits set. On a text an expression becomes a plan, in which each class
  and each condition is the set of places it holds at. `reach` maps the places where a
  match may begin to those where it may end. `isMatch` asks whether there is a match
  anywhere.
-/

import LineMatch.Pattern.Parser

namespace LineMatch.Pattern

/-- The number with bit `i` set where the list holds at `i`. -/
def bits : List Bool → Nat
  | [] => 0
  | b :: bs => 2 * bits bs + b.toNat

/-- The characters before and after each place. -/
def gapsFrom (before : Option Char) : List Char → List (Option Char × Option Char)
  | [] => [(before, none)]
  | c :: cs => (before, some c) :: gapsFrom (some c) cs

/-- Applies `f` up to `n` times, until it changes nothing. -/
def applyTimes (f : Nat → Nat) : Nat → Nat → Nat
  | 0, places => places
  | n + 1, places =>
    let next := f places
    if next = places then places else applyTimes f n next

/-- Adds what `f` gives up to `n` times, until nothing new comes. -/
def applyUpTo (f : Nat → Nat) (n : Nat) (places : Nat) : Nat := applyTimes (fun p => p ||| f p) n places

/-- An expression on a text. -/
inductive Plan where
  | empty
  /-- One character, from one of these places to the next. -/
  | move (places : Nat)
  /-- No character, at one of these places. -/
  | stay (places : Nat)
  | seq (a b : Plan)
  | choice (a b : Plan)
  | times (a : Plan) (least : Nat) (most : Option Nat)
  deriving Repr, DecidableEq

def Expr.plan (cs : List Char) : Expr → Plan
  | empty => .empty
  | one k => .move (bits (cs.map k.has))
  | place p => .stay (bits ((gapsFrom none cs).map fun g => p.holds g.1 g.2))
  | seq a b => .seq (a.plan cs) (b.plan cs)
  | choice a b => .choice (a.plan cs) (b.plan cs)
  | group a => a.plan cs
  | times a least most => .times (a.plan cs) least most

/-- The places where matches end that begin at `places`; the text has `n` characters. -/
def Plan.reach (n : Nat) : Plan → Nat → Nat
  | empty, places => places
  | move here, places => (places &&& here) <<< 1
  | stay here, places => places &&& here
  | seq a b, places => b.reach n (a.reach n places)
  | choice a b, places => a.reach n places ||| b.reach n places
  | times a least none, places => applyUpTo (a.reach n) (n + 1) (applyTimes (a.reach n) least places)
  | times a least (some most), places =>
    applyUpTo (a.reach n) (most - least) (applyTimes (a.reach n) least places)

/-- Every place of a text. -/
def allPlaces (cs : List Char) : Nat := Nat.pow 2 (cs.length + 1) - 1

def Expr.isMatch (e : Expr) (cs : List Char) : Bool := (e.plan cs).reach cs.length (allPlaces cs) != 0

/-- The text of a pattern put between the two ends of a text. -/
def anchored (pattern : String) : List Char := "^(?:".toList ++ pattern.toList ++ ")$".toList

/-- The expression for values: the pattern between the ends of the text, if it fits. -/
def compile? (engine : Engine) (pattern : String) : Option Expr :=
  if engine.fits (anchored pattern) then parse? engine (anchored pattern) else none

end LineMatch.Pattern
