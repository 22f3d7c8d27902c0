/-
  LineMatch.Grammar.Basic — the commands of a shell and the types of their values.

  A command has a name of one or more words and a list of parameters; parameters nest.
  A parameter refers to its type by name. Command names are compared word by word in
  small letters (`Command.key`); of several commands or types with one name a look-up
  gives the last.
-/

import LineMatch.Text.Blank
import LineMatch.Text.Case

namespace LineMatch

/-! ## Types of values -/

/-- A script run by a program of its own. -/
structure Action where
  script : String
  /-- The program, where it is not the usual one. -/
  shell : Option String := none
  deriving Repr, DecidableEq, Inhabited

/-- What is done to a text before it is judged. -/
inductive Preprocess where
  | none | toUpper | toLower
  deriving Repr, DecidableEq, Inhabited

/-- How a type judges a text. -/
inductive Method where
  | regexp (pattern : String)
  | integer (min max : Option Int)
  | unsignedInteger (min max : Option Nat)
  | select (options : List String)
  /-- The script of an action decides. -/
  | code (action : Action)
  deriving Repr, DecidableEq, Inhabited

structure ValueType where
  name : String
  help : Option String := none
  method : Method
  preprocess : Preprocess := .none
  deriving Repr, DecidableEq, Inhabited

def ValueType.action? (t : ValueType) : Option Action :=
  match t.method with
  | .code a => some a
  | _ => none

/-! ## Parameters -/

/-- How a parameter takes a word. -/
inductive Mode (α : Type) where
  /-- As a value of its type. -/
  | ordinary
  /-- Through the first of the alternatives that takes it. -/
  | switch (alternatives : List α)
  /-- As an abbreviation of a keyword. -/
  | subcommand (keyword : String)
  deriving Repr, Inhabited

structure Param where
  name : String
  help : Option String := none
  /-- The name of the type of its values. -/
  type : String
  mode : Mode Param := .ordinary
  isOptional : Bool := false
  /-- Whether an optional parameter keeps its place among the others. -/
  isOrdered : Bool := false
  /-- The test that says whether the parameter applies. -/
  test : Option String := none
  /-- Parameters that follow right after this one. -/
  params : List Param := []
  deriving Repr, Inhabited

namespace Param

def isSwitch (p : Param) : Bool :=
  match p.mode with
  | .switch _ => true
  | _ => false

def keyword? (p : Param) : Option String :=
  match p.mode with
  | .subcommand k => some k
  | _ => none

def alternatives (p : Param) : List Param :=
  match p.mode with
  | .switch as => as
  | _ => []

end Param

/-! ## Commands -/

structure Command where
  name : String
  help : Option String := none
  params : List Param := []
  /-- The parameter that takes the words left over. -/
  args : Option Param := none
  action : Option Action := none
  deriving Repr, Inhabited

/-- A command's name as it is compared. -/
def nameKey (name : String) : String := " ".intercalate ((Text.words name).map Text.toLower)

namespace Command

def words (c : Command) : List String := Text.words c.name

def wordCount (c : Command) : Nat := c.words.length

def key (c : Command) : String := nameKey c.name

end Command

structure Grammar where
  types : List ValueType := []
  commands : List Command := []
  deriving Repr, Inhabited

namespace Grammar

def type? (g : Grammar) (name : String) : Option ValueType := g.types.reverse.find? (·.name == name)

def command? (g : Grammar) (name : String) : Option Command :=
  let key := nameKey name
  g.commands.reverse.find? (·.key == key)

end Grammar

end LineMatch
