/-
  LineMatch.Grammar.Check — whether a grammar is well formed.

  Types have distinct names and patterns that can be read; commands have distinct names;
  in each list of parameters the names are distinct and the types exist. `check` reports
  the first rule broken: types in order, then commands in order, each with its
  parameters depth first and the parameter for words left over last. Which patterns can be
  read is the engine's to say.
-/

import LineMatch.Grammar.Basic
import LineMatch.Pattern.Match
import LineMatch.Pattern.Standard

namespace LineMatch.Grammar

/-- A rule a grammar breaks. -/
inductive Defect where
  | duplicateCommand (name : String)
  | duplicateType (name : String)
  | duplicateParam (command param : String)
  | unknownType (command param type : String)
  | invalidPattern (type : String)
  deriving Repr, DecidableEq

def Defect.message : Defect → String
  | duplicateCommand name => "duplicate command '" ++ name ++ "'"
  | duplicateType name => "duplicate ptype '" ++ name ++ "'"
  | duplicateParam command param => "command '" ++ command ++ "': duplicate param '" ++ param ++ "'"
  | unknownType command param type =>
    "command '" ++ command ++ "': param '" ++ param ++ "' uses unknown ptype '" ++ type ++ "'"
  | invalidPattern type => "ptype '" ++ type ++ "': invalid pattern"

def checkType (seen : List String) (t : ValueType) (engine : Pattern.Engine := .standard) : Except Defect Unit :=
  if seen.contains t.name then .error (.duplicateType t.name)
  else match t.method with
    | .regexp pattern =>
      if (Pattern.compile? engine pattern).isSome then .ok () else .error (.invalidPattern t.name)
    | _ => .ok ()

/-- The types after those with the names `seen`. -/
def checkTypes (seen : List String) (types : List ValueType) (engine : Pattern.Engine := .standard) :
    Except Defect Unit :=
  match types with
  | [] => .ok ()
  | t :: ts => do
    checkType seen t engine
    checkTypes (t.name :: seen) ts engine

mutual

/-- The parameters after those with the names `seen` in the same list. -/
def checkParams (g : Grammar) (command : String) (seen : List String) : List Param → Except Defect Unit
  | [] => .ok ()
  | p :: ps => do
    checkParam g command seen p
    checkParams g command (p.name :: seen) ps

def checkParam (g : Grammar) (command : String) (seen : List String) : Param → Except Defect Unit
  | ⟨name, _, type, mode, _, _, _, params⟩ => do
    if seen.contains name then .error (.duplicateParam command name)
    if (g.type? type).isNone then .error (.unknownType command name type)
    match mode with
    | .switch alternatives => checkParams g command [] alternatives
    | .ordinary | .subcommand _ => .ok ()
    checkParams g command [] params

end

def checkCommand (g : Grammar) (seen : List String) (c : Command) : Except Defect Unit := do
  if seen.contains c.key then .error (.duplicateCommand c.name)
  checkParams g c.name [] c.params
  match c.args with
  | some p => checkParams g c.name [] [p]
  | none => .ok ()

/-- The commands after those with the keys `seen`. -/
def checkCommands (g : Grammar) (seen : List String) : List Command → Except Defect Unit
  | [] => .ok ()
  | c :: cs => do
    checkCommand g seen c
    checkCommands g (c.key :: seen) cs

/-- The first rule broken, if any. -/
def check (g : Grammar) (engine : Pattern.Engine := .standard) : Except Defect Unit := do
  checkTypes [] g.types engine
  checkCommands g [] g.commands

end LineMatch.Grammar
