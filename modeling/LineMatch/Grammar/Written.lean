/-
  LineMatch.Grammar.Written — grammars as JSON values.

  Fields that are absent or have their usual value are left out, except the bounds of
  integer types, the preprocessing step and the lists of a grammar.
-/

import LineMatch.Grammar.Basic
import LineMatch.Json.Value

namespace LineMatch

open LineMatch.Json (Value)

/-- A member that is left out when there is no value. -/
def optionMember (name : String) (value : Option Value) : List (String × Value) :=
  (value.map fun v => (name, v)).toList

def optionalMember (name : String) (value : Option String) : List (String × Value) :=
  optionMember name (value.map .string)

def Action.toJson (a : Action) : Value :=
  .object ([("script", .string a.script)] ++ optionalMember "shell" a.shell)

def Preprocess.name : Preprocess → String
  | none => "none"
  | toUpper => "toupper"
  | toLower => "tolower"

/-- A bound, or `null`. -/
def boundValue {α : Type} (toValue : α → Value) : Option α → Value
  | some n => toValue n
  | none => .null

def Method.members : Method → List (String × Value)
  | regexp pattern => [("method", .string "regexp"), ("pattern", .string pattern)]
  | integer min max =>
    [("method", .string "integer"), ("min", boundValue .int min), ("max", boundValue .int max)]
  | unsignedInteger min max =>
    [("method", .string "unsignedInteger"), ("min", boundValue .nat min), ("max", boundValue .nat max)]
  | select options =>
    [("method", .string "select"), ("options", .array (options.map fun o => .object [("name", .string o)]))]
  | code action => [("method", .string "code"), ("action", action.toJson)]

def ValueType.toJson (t : ValueType) : Value :=
  .object ([("name", .string t.name)] ++ optionalMember "help" t.help ++ t.method.members ++
    [("preprocess", .string t.preprocess.name)])

def Mode.name {α : Type} : Mode α → String
  | ordinary => "ordinary"
  | switch _ => "switch"
  | subcommand _ => "subcommand"

/-- A truth value that is left out when false. -/
def trueMember (name : String) (b : Bool) : List (String × Value) := if b then [(name, .bool true)] else []

/-- A list that is left out when empty. -/
def listMember (name : String) (vs : List Value) : List (String × Value) :=
  if vs.isEmpty then [] else [(name, .array vs)]

mutual

def Param.toJson : Param → Value
  | ⟨name, help, type, mode, isOptional, isOrdered, test, params⟩ =>
    let alternatives := match mode with
      | .switch as => paramsToJson as
      | .ordinary | .subcommand _ => []
    let keyword := match mode with
      | .subcommand k => some k
      | .ordinary | .switch _ => none
    .object ([("name", .string name)] ++ optionalMember "help" help ++
      [("ptype", .string type), ("mode", .string mode.name)] ++
      trueMember "optional" isOptional ++ trueMember "order" isOrdered ++ optionalMember "test" test ++
      optionalMember "value" keyword ++ listMember "alternatives" alternatives ++
      listMember "params" (paramsToJson params))

def paramsToJson : List Param → List Value
  | [] => []
  | p :: ps => p.toJson :: paramsToJson ps

end

def Command.toJson (c : Command) : Value :=
  .object ([("name", .string c.name)] ++ optionalMember "help" c.help ++
    [("params", .array (paramsToJson c.params))] ++
    optionMember "args" (c.args.map Param.toJson) ++ optionMember "action" (c.action.map Action.toJson))

def Grammar.toJson (g : Grammar) : Value :=
  .object [("ptypes", .array (g.types.map ValueType.toJson)),
    ("commands", .array (g.commands.map Command.toJson))]

end LineMatch
