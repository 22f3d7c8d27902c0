/-
  LineMatch.Session.Scope — what a test, a check or a script can see.

  A session is a grammar with variables. A scope is a session with a command, an action
  and a store, as far as there are any: binding a command brings its own action along,
  `running` puts another action and another store in their place.
-/

import LineMatch.Store

namespace LineMatch

structure Session where
  grammar : Grammar
  /-- The variables, the one set last first. -/
  vars : List (String × String) := []
  deriving Repr, Inhabited

namespace Session

def setVar (s : Session) (name value : String) : Session := { s with vars := (name, value) :: s.vars }

def var? (s : Session) (name : String) : Option String := s.vars.lookup name

end Session

structure Scope where
  session : Session
  command? : Option Command := none
  action? : Option Action := none
  store? : Option Store := none
  deriving Repr, Inhabited

namespace Scope

/-- Binds a command; the action in scope is the command's own. -/
def withCommand (s : Scope) (c : Command) : Scope := { s with command? := some c, action? := c.action }

def withStore (s : Scope) (store : Store) : Scope := { s with store? := some store }

/-- The scope for running `action` on a store of its own. -/
def running (s : Scope) (action : Action) (store : Store) : Scope :=
  { s with action? := some action, store? := some store }

/-- The name that stands for the command's. -/
def commandName : String := "__cmd"

/-- The value of a name: a recorded one, the command's name or a variable. -/
def value? (s : Scope) (name : String) : Option String :=
  (s.store?.bind (·.value? name)).or
    (if name = commandName then s.command?.map Command.name else s.session.var? name)

end Scope

end LineMatch
