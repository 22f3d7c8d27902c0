/-
  LineMatch.Session.Executor — running actions.

  An executor answers for the action of a scope: with a status and the text it wrote, or
  with the fault that kept it from running. An answer may hang on the calls made before,
  so an executor is given those too. `calls` in this library always has the last call
  first.
-/

import LineMatch.Session.Scope

namespace LineMatch

structure Output where
  /-- Zero means success. -/
  status : Int := 0
  stdout : String := ""
  deriving Repr, DecidableEq, Inhabited

def Output.isSuccess (o : Output) : Bool := o.status == 0

/-- Why a program could not be started. -/
inductive StartFault where
  | notFound
  | denied
  | nulInArgument
  deriving Repr, DecidableEq

def StartFault.message : StartFault → String
  | notFound => "No such file or directory (os error 2)"
  | denied => "Permission denied (os error 13)"
  | nulInArgument => "nul byte found in provided data"

/-- Why an action gave no status. -/
inductive RunFault where
  | noAction
  | start (program : String) (cause : StartFault)
  deriving Repr, DecidableEq

def RunFault.message : RunFault → String
  | noAction => "no action in scope"
  | start program cause => "cannot run " ++ program ++ ": " ++ cause.message

/-- The answer in a scope, given the calls made before. -/
abbrev Executor := List Scope → Scope → Except RunFault Output

/-- An executor whose answers hang on the scope alone. -/
def Executor.IsSteady (run : Executor) : Prop := ∀ calls calls' s, run calls s = run calls' s

end LineMatch
