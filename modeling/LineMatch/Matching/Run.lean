/-
  LineMatch.Matching.Run — a whole match.

  `finish` visits until a visit ends the match; `State.cost` falls with each, so it is
  total. `start` scans the parameters of a command from a place among the words.
-/

import LineMatch.Matching.Cost

namespace LineMatch.Matching

namespace Setting

/-- The status and the state that a match ends with. -/
def finish (m : Setting) (s : State) : Status × State :=
  match _h : m.step s with
  | .stop status s => (status, s)
  | .go s' => finish m s'
termination_by s.cost
decreasing_by exact step_cost _h

/-- One list of parameters, to be scanned from the word at `cursor` on. -/
def start (params : List Param) (cursor : Nat) (store : Store) : State :=
  ⟨[⟨params, 0, 0⟩], cursor, store, .empty, []⟩

/-- Matches the command's parameters from the first word after its name. -/
def result (m : Setting) : Status × State := m.finish (start m.command.params m.command.wordCount .empty)

end Setting

end LineMatch.Matching
