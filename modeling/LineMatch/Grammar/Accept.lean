/-
  LineMatch.Grammar.Accept — which texts a type accepts, and as what.

  The text is preprocessed first, and the value is the preprocessed text. Types decided
  by an action accept nothing here.
-/

import LineMatch.Grammar.Basic
import LineMatch.Number.Integer
import LineMatch.Pattern.Match
import LineMatch.Pattern.Standard

namespace LineMatch

def Preprocess.apply : Preprocess → String → String
  | none, text => text
  | toUpper, text => Text.toUpper text
  | toLower, text => Text.toLower text

/-- Whether a number lies between bounds, as far as they are given. -/
def within {α : Type} [LE α] [DecidableLE α] (min max : Option α) (n : α) : Bool :=
  min.all (fun lo => lo ≤ n) && max.all (fun hi => n ≤ hi)

/-- Whether a preprocessed text is a value. -/
def Method.admits (method : Method) (text : String) (engine : Pattern.Engine := .standard) : Bool :=
  match method with
  | regexp pattern => (Pattern.compile? engine pattern).any fun e => e.isMatch text.toList
  | integer min max => (Number.signed? text.toList).any (within min max)
  | unsignedInteger min max =>
    !(text.toList.head? == some '+') && (Number.unsigned? text.toList).any (within min max)
  | select options => options.contains text
  | code _ => false

/-- The value a text stands for, if the type accepts it without running anything. -/
def ValueType.accept? (t : ValueType) (text : String) (engine : Pattern.Engine := .standard) : Option String :=
  let value := t.preprocess.apply text
  if t.method.admits value engine then some value else none

end LineMatch
