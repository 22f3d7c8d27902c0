/-
  LineMatch.Session.AnswerTable — an executor that runs nothing.

  The answers stand in a table, and the value that is in scope under the name `value`
  picks the row: for trying a grammar out without its scripts.
-/

import LineMatch.Session.Executor

namespace LineMatch

/-- A row of the table. Where a condition is absent every value meets it. -/
structure Answer where
  /-- The value itself. -/
  value : Option String := none
  /-- How the value begins. -/
  start : Option String := none
  /-- The output, or nothing for an action that cannot be run. -/
  output : Option Output
  deriving Repr

def Answer.applies (a : Answer) (value : String) : Bool :=
  a.value.all (· == value) && a.start.all (·.toList.isPrefixOf value.toList)

/-- The first row that applies answers; without one the action fails. -/
def Executor.ofTable (table : List Answer) : Executor := fun _ s =>
  let value := (s.store?.bind (·.value? "value")).getD ""
  match table.find? (·.applies value) with
  | some { output := some o, .. } => .ok o
  | some { output := none, .. } => .error .noAction
  | none => .ok { status := 1 }

end LineMatch
