/-
  LineMatch.Session.Condition — the tests that say whether a parameter applies.

  A test is expanded, split into words like a command line and judged by its words:
  a word alone holds when it is not empty, `!` negates, `-n` and `-z` ask whether a word
  is empty, and a word between two others compares them as texts or as integers. Any
  other test does not hold.
-/

import LineMatch.Number.Integer
import LineMatch.Session.Expansion
import LineMatch.Token

namespace LineMatch.Condition

/-- Compares two integers of 64 bits. -/
def compareIntegers (a op b : String) : Bool :=
  match Number.signed? a.toList, Number.signed? b.toList with
  | some a, some b =>
    match op with
    | "-eq" => a == b
    | "-ne" => a != b
    | "-gt" => a > b
    | "-ge" => a ≥ b
    | "-lt" => a < b
    | "-le" => a ≤ b
    | _ => false
  | _, _ => false

/-- Whether a list of words holds. -/
def holdsWords : List String → Bool
  | [] => false
  | "!" :: rest => !holdsWords rest
  | [s] => !s.isEmpty
  | ["-n", s] => !s.isEmpty
  | ["-z", s] => s.isEmpty
  | [a, op, b] =>
    if op = "=" then a == b
    else if op = "!=" then a != b
    else compareIntegers a op b
  | _ => false

def holds (s : Scope) (test : String) : Bool :=
  holdsWords ((tokens (expand s .raw test)).map Token.text)

/-- Whether a parameter applies where `store` is what has been recorded. -/
def applies (s : Scope) (store : Store) (p : Param) : Bool := p.test.all (holds (s.withStore store))

end LineMatch.Condition
