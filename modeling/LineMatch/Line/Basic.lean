/-
  LineMatch.Line.Basic — whole command lines.

  `resolve?` finds the command a line names: the one with the most leading words, none of
  them quoted. `parse` matches the words after the name. `complete?` matches them too and
  collects what could stand for the word at the end of the line: the last word if the
  line ends with it, else a new one. There is nothing to complete inside the name.
-/

import LineMatch.Matching.Run

namespace LineMatch

open LineMatch.Matching (Setting)

namespace Grammar

/-- The command with the longest name among the first `n` texts. -/
def longest? (g : Grammar) (texts : List String) : Nat → Option Command
  | 0 => none
  | n + 1 => (g.command? (" ".intercalate (texts.take (n + 1)))).or (g.longest? texts n)

/-- The command that words begin with. -/
def resolve? (g : Grammar) (ts : List Token) : Option Command :=
  let plain := (ts.takeWhile (!·.isQuoted)).map Token.text
  g.longest? plain plain.length

end Grammar

/-! ## Parsing -/

/-- What a line comes to. -/
structure Parsed where
  status : Status
  command? : Option Command
  /-- The values, where the status is ok. -/
  store? : Option Store
  deriving Repr, Inhabited

def Session.setting (s : Session) (run : Executor) (c : Command) (ts : List Token) (target : Option Nat) :
    Setting :=
  { run := run, scope := { session := s : Scope }.withCommand c, command := c, words := ts,
    target := target }

/-- What a line comes to, and the calls made on the way, the last first. -/
def Session.parse (s : Session) (run : Executor) (line : String) : Parsed × List Scope :=
  let ts := tokens line
  match s.grammar.resolve? ts with
  | none => (⟨.illegalCommand, none, none⟩, [])
  | some c =>
    let (status, last) := (s.setting run c ts none).result
    (⟨status, some c, if status = .ok then some last.store else none⟩, last.calls)

/-! ## Completion -/

/-- What could stand at the end of a line. -/
structure Completion where
  command : Command
  status : Status
  /-- The parameters that could take the word, each with the word so far. -/
  candidates : Store
  /-- The word so far. -/
  typed : String
  deriving Repr, Inhabited

/-- The place of the word at the end of a line of `size` bytes, and the word so far. -/
def wordAtEnd (ts : List Token) (size : Nat) : Nat × String :=
  match ts.getLast? with
  | some last => if last.stop < size then (ts.length, "") else (ts.length - 1, last.text)
  | none => (0, "")

/-- What could stand at the end of a line, and the calls made to find out, the last first. -/
def Session.complete? (s : Session) (run : Executor) (line : String) : Option Completion × List Scope :=
  let ts := tokens line
  match s.grammar.resolve? ts with
  | none => (none, [])
  | some c =>
    let (place, typed) := wordAtEnd ts (Text.size line.toList)
    if place < c.wordCount then (none, [])
    else
      let (status, last) := (s.setting run c ts (some place)).result
      (some ⟨c, status, last.candidates, typed⟩, last.calls)

end LineMatch
