/-
  LineMatch.Pattern.Syntax — what a pattern denotes once it is read.

  A pattern is built from classes (one character each) and places (no character) by
  sequence, choice and repetition. `Class.has` and `Place.holds` say which characters
  and which places belong.
-/

import LineMatch.Pattern.Property

namespace LineMatch.Pattern

open LineMatch.Text

/-! ## Classes -/

inductive Class where
  | nothing
  /-- The characters from `lo` to `hi`. -/
  | range (lo hi : Char)
  | property (p : Property)
  | word
  | union (a b : Class)
  | inter (a b : Class)
  | diff (a b : Class)
  | oneOf (a b : Class)
  | negate (a : Class)
  /-- All that differs from a member in case alone. -/
  | blind (a : Class)
  /-- The same among ASCII letters. -/
  | asciiBlind (a : Class)
  deriving Repr, DecidableEq

/-- The other ASCII letter of the same name. -/
def asciiOther (c : Char) : Char := if c.isUpper then c.toLower else c.toUpper

def Class.has : Class → Char → Bool
  | nothing, _ => false
  | range lo hi, c => lo ≤ c && c ≤ hi
  | property p, c => p.has c
  | word, c => isWordChar c
  | union a b, c => a.has c || b.has c
  | inter a b, c => a.has c && b.has c
  | diff a b, c => a.has c && !b.has c
  | oneOf a b, c => a.has c != b.has c
  | negate a, c => !a.has c
  | blind a, c => (orbit c).any a.has
  | asciiBlind a, c => a.has c || a.has (asciiOther c)

def Class.one (c : Char) : Class := range c c

def Class.categories (cs : List Category) : Class := property (.categories cs)

/-- The characters listed as ranges of code points. -/
def Class.listed (lines : List String) : Class := property (.listed (ranges lines))

instance : Union Class := ⟨.union⟩

instance : SDiff Class := ⟨.diff⟩

/-- The union of ranges given by their ends. -/
def Class.ofRanges (rs : List (Char × Char)) : Class :=
  rs.foldr (fun r a => union (range r.1 r.2) a) nothing

def asciiDigit : Class := .range '0' '9'

def asciiSpace : Class := .ofRanges [('\t', '\r'), (' ', ' ')]

def asciiWord : Class := .ofRanges [('0', '9'), ('A', 'Z'), ('_', '_'), ('a', 'z')]

/-- The classes written `[:name:]` inside brackets. -/
def asciiNamed? (name : String) : Option Class :=
  match name with
  | "alnum" => some (.ofRanges [('0', '9'), ('A', 'Z'), ('a', 'z')])
  | "alpha" => some (.ofRanges [('A', 'Z'), ('a', 'z')])
  | "ascii" => some (.range '\x00' '\x7f')
  | "blank" => some (.ofRanges [('\t', '\t'), (' ', ' ')])
  | "cntrl" => some (.ofRanges [('\x00', '\x1f'), ('\x7f', '\x7f')])
  | "digit" => some asciiDigit
  | "graph" => some (.range '!' '~')
  | "lower" => some (.range 'a' 'z')
  | "print" => some (.range ' ' '~')
  | "punct" => some (.ofRanges [('!', '/'), (':', '@'), ('[', '\x60'), ('\x7b', '~')])
  | "space" => some asciiSpace
  | "upper" => some (.range 'A' 'Z')
  | "word" => some asciiWord
  | "xdigit" => some (.ofRanges [('0', '9'), ('A', 'F'), ('a', 'f')])
  | _ => none

/-! ## Places -/

inductive Place where
  | textStart | textEnd
  | lineStart | lineEnd
  /-- Lines that end in a line feed, a carriage return or both. -/
  | crlfStart | crlfEnd
  /-- Edges of words, of Unicode or of ASCII characters. -/
  | wordEdge (isUnicode : Bool) | notWordEdge (isUnicode : Bool)
  | wordStart (isUnicode : Bool) | wordEnd (isUnicode : Bool)
  | wordStartHalf (isUnicode : Bool) | wordEndHalf (isUnicode : Bool)
  deriving Repr, DecidableEq

/-- Whether there is a character and it is one of words. -/
def inWord (isUnicode : Bool) : Option Char → Bool
  | some c => if isUnicode then isWordChar c else asciiWord.has c
  | none => false

/-- Whether a place lies between the character before and the one after. -/
def Place.holds : Place → Option Char → Option Char → Bool
  | textStart, before, _ => before.isNone
  | textEnd, _, after => after.isNone
  | lineStart, before, _ => before.isNone || before == some '\n'
  | lineEnd, _, after => after.isNone || after == some '\n'
  | crlfStart, before, after =>
    before.isNone || before == some '\n' || (before == some '\r' && after != some '\n')
  | crlfEnd, before, after =>
    after.isNone || after == some '\r' || (after == some '\n' && before != some '\r')
  | wordEdge u, before, after => inWord u before != inWord u after
  | notWordEdge u, before, after => inWord u before == inWord u after
  | wordStart u, before, after => !inWord u before && inWord u after
  | wordEnd u, before, after => inWord u before && !inWord u after
  | wordStartHalf u, before, _ => !inWord u before
  | wordEndHalf u, _, after => !inWord u after

/-! ## Expressions -/

inductive Expr where
  | empty
  | one (c : Class)
  | place (p : Place)
  | seq (a b : Expr)
  | choice (a b : Expr)
  /-- A group that keeps what it matches. -/
  | group (a : Expr)
  /-- At least `least` times, at most `most` times if that is given. -/
  | times (a : Expr) (least : Nat) (most : Option Nat)
  deriving Repr, DecidableEq

end LineMatch.Pattern
