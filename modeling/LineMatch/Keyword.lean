/-
  LineMatch.Keyword — abbreviated keywords.

  A word stands for a keyword when it is a beginning of it, capitals and small letters
  being the same. The small forms of the word's characters, one after the other, are
  compared with those of the keyword. A character may have several small forms, so those
  of the keyword are given out one at a time (`Forms`): the word may end between two
  forms of one character.
-/

import LineMatch.Text.Case

namespace LineMatch.Keyword

/-- The small forms of all characters, each on its own. -/
def lowered (cs : List Char) : List Char := cs.flatMap Text.lower

/-- The small forms of a text that are still to come. -/
structure Forms where
  /-- Those left of the last character taken. -/
  ready : List Char := []
  /-- The characters not taken yet. -/
  chars : List Char
  deriving Repr

/-- The first small form, and what comes behind it. A character is taken when none is ready. -/
def nextFrom : List Char → List Char → Option (Char × Forms)
  | d :: ds, cs => some (d, ⟨ds, cs⟩)
  | [], c :: cs => nextFrom (Text.lower c) cs
  | [], [] => none

namespace Forms

def next? (f : Forms) : Option (Char × Forms) := nextFrom f.ready f.chars

/-- What comes behind `d`, when `d` comes next. -/
def take? (f : Forms) (d : Char) : Option Forms :=
  match f.next? with
  | some (c, rest) => if c = d then some rest else none
  | none => none

end Forms

/-- Whether the small forms of the word are those of the keyword that come next, up to the
    word's end. -/
def begins (keyword word : String) : Bool :=
  ((lowered word.toList).foldlM Forms.take? { chars := keyword.toList }).isSome

end LineMatch.Keyword
