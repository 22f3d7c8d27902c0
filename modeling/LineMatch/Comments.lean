/-
  LineMatch.Comments — JSON with comments.

  A line comment runs from `//` to the end of its line, a block comment from `/*` to the
  next `*/`. `strip` leaves out the comments that stand outside strings and keeps the
  line feeds inside them, so that what is left of each line keeps its number.
-/

namespace LineMatch.Comments

/-- Where reading stands. -/
inductive Place where
  | text
  | string
  | escaped
  | line
  /-- In a block comment, after a star or not. -/
  | block (afterStar : Bool)
  deriving DecidableEq, Repr

def stripFrom : Place → List Char → List Char
  | _, [] => []
  | .text, '/' :: '/' :: cs => stripFrom .line cs
  | .text, '/' :: '*' :: cs => stripFrom (.block false) cs
  | .text, c :: cs => c :: stripFrom (if c = '"' then .string else .text) cs
  | .string, c :: cs =>
    c :: stripFrom (if c = '"' then .text else if c = '\\' then .escaped else .string) cs
  | .escaped, c :: cs => c :: stripFrom .string cs
  | .line, c :: cs => if c = '\n' then c :: stripFrom .text cs else stripFrom .line cs
  | .block afterStar, c :: cs =>
    if afterStar ∧ c = '/' then stripFrom .text cs
    else if c = '\n' then c :: stripFrom (.block false) cs
    else stripFrom (.block (c == '*')) cs

def strip (text : String) : String := String.ofList (stripFrom .text text.toList)

end LineMatch.Comments
