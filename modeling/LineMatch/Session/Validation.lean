/-
  LineMatch.Session.Validation — whether a parameter takes a word, and as what value.

  A keyword takes what begins it. Beyond that the type decides: on its own, or by
  running its action on a store that holds the word alone. An action that fails refuses
  the word, one that writes something replaces it. `accept?` gives the value and the
  calls made so far, the last first.
-/

import LineMatch.Grammar.Accept
import LineMatch.Keyword
import LineMatch.Session.Executor

namespace LineMatch

/-- The parameter under which an action sees the word to be checked. -/
def checkedParam (type : String) : Param :=
  { name := "value", help := some "Value under validation", type := type }

/-- The scope in which an action checks a word. -/
def Scope.checking (s : Scope) (t : ValueType) (a : Action) (text : String) : Scope :=
  s.running a (Store.empty.insert (checkedParam t.name) text)

/-- The value of a word, given what running the action on it came to. -/
def verdict (text : String) : Except RunFault Output → Option String
  | .error _ => none
  | .ok o => if !o.isSuccess then none else if o.stdout.isEmpty then some text else some o.stdout

/-- Whether a word may stand for a parameter's keyword, if it has one. -/
def Param.admits (p : Param) (text : String) : Bool := p.keyword?.all (Keyword.begins · text)

/-- What a type makes of a word. -/
def ValueType.judge (t : ValueType) (run : Executor) (s : Scope) (text : String) (calls : List Scope) :
    Option String × List Scope :=
  match t.action? with
  | none => (t.accept? text, calls)
  | some a => (verdict text (run calls (s.checking t a text)), s.checking t a text :: calls)

/-- What a parameter makes of a word. -/
def Param.accept? (p : Param) (run : Executor) (s : Scope) (text : String) (calls : List Scope) :
    Option String × List Scope :=
  if p.admits text then
    match s.session.grammar.type? p.type with
    | some t => t.judge run s text calls
    | none => (none, calls)
  else (none, calls)

end LineMatch
