/-
  LineMatch.Script.Run — running a script.

  Clauses change the variables and the status and add to the output; once the script has
  ended nothing more is run. What comes of a whole script is its status and the bytes it
  wrote.
-/

import LineMatch.Script.Builtin
import LineMatch.Script.Clause
import LineMatch.Script.Field

namespace LineMatch.Script

structure Machine where
  vars : List (String × String) := []
  status : Nat := 0
  bytes : List Nat := []
  flow : Flow := .running
  deriving Repr, DecidableEq

namespace Machine

/-- The value of a name, empty where there is none. -/
def value (m : Machine) (name : String) : String :=
  match name with
  | "?" => toString m.status
  | "$" => ownProcess
  | "#" => "0"
  | _ => (m.vars.lookup name).getD ""

def apply (m : Machine) (e : Effect) : Machine :=
  { m with status := e.status, bytes := m.bytes ++ e.bytes, flow := e.flow }

/-- The name and the value of a word that assigns. -/
def assignment? (w : Word) : Option (String × Word) :=
  let name := w.takeWhile fun m => m != .bare '='
  match w.drop name.length, plainText? name with
  | _ :: value, some text =>
    match text.toList with
    | c :: cs => if isNameStart c && cs.all isNameChar then some (text, value) else none
    | [] => none
  | _, _ => none

/-- Makes the assignments that words begin with and gives the words after them. -/
def assign (m : Machine) : List Word → Machine × List Word
  | [] => (m, [])
  | w :: ws =>
    match assignment? w with
    | some (name, v) => assign { m with vars := (name, wholeText m.value v) :: m.vars } ws
    | none => (m, w :: ws)

/-- Runs one command. Assignments before a command's name last only as long as it. -/
def runWords (m : Machine) (input : List Nat) (ws : List Word) : Machine :=
  let (assigned, rest) := m.assign ws
  match rest.flatMap (fields m.value) with
  | [] => { assigned with status := 0 }
  | name :: args => m.apply (perform m.status input name args)

/-- Whether a word matches one of some patterns. -/
def isChosen (m : Machine) (subject : Word) (patterns : List Word) : Bool :=
  patterns.any fun p => matchesGlobs (globs (glyphs m.value p)) (wholeText m.value subject).toList

/-- What is left of running `inner` on its own after `m`. -/
def rejoin (m inner : Machine) : Machine :=
  { m with
    status := inner.status
    bytes := inner.bytes
    flow := if inner.flow = .killed then .killed else m.flow }

def run (input : List Nat) (m : Machine) : Clause → Machine
  | .nothing => { m with status := 0 }
  | .words ws => m.runWords input ws
  | .seq a b =>
    let m := run input m a
    if m.flow = .running then run input m b else m
  | .both a b =>
    let m := run input m a
    if m.flow = .running ∧ m.status = 0 then run input m b else m
  | .either a b =>
    let m := run input m a
    if m.flow = .running ∧ m.status ≠ 0 then run input m b else m
  | .negation a =>
    let m := run input m a
    if m.flow = .running then { m with status := if m.status = 0 then 1 else 0 } else m
  | .pipe a b =>
    let first := run input { m with bytes := [] } a
    let last := run first.bytes m b
    if first.flow = .killed then { last with flow := .killed } else m.rejoin last
  | .muted a => { run input m a with bytes := m.bytes }
  | .apart a => m.rejoin (run input m a)
  | .branch test yes no =>
    let m := run input m test
    if m.flow = .running then if m.status = 0 then run input m yes else run input m no else m
  | .choice subject patterns body other =>
    if m.isChosen subject patterns then run input m body else run input m other

/-- Runs lines until one ends the script. -/
def runLines (m : Machine) : List Clause → Machine
  | [] => m
  | a :: as =>
    let m := run [] m a
    if m.flow = .running then runLines m as else m

end Machine

/-- Runs a script with some variables; one that cannot be read ends with status 2 there. -/
def runScript (vars : List (String × String)) (script : String) : Machine :=
  match symbols? script with
  | none => { status := 2, flow := .ended }
  | some symbols =>
    let (as, isBroken) := lines (symbols.length + 1) symbols
    let m := Machine.runLines { vars := vars } as
    if isBroken ∧ m.flow = .running then { m with status := 2, flow := .ended } else m

end LineMatch.Script
