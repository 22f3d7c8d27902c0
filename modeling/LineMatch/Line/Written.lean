/-
  LineMatch.Line.Written — what came of a line, as JSON.
-/

import LineMatch.Line.Basic

namespace LineMatch

open LineMatch.Json (Value)

/-- The name of a status in JSON. -/
def Status.name : Status → String
  | ok => "ok"
  | incomplete => "partial"
  | illegalParam => "bad_param"
  | illegalCommand => "bad_cmd"

/-- The status in words. -/
def Status.message : Status → String
  | ok => "ok"
  | incomplete => "incomplete command"
  | illegalParam => "illegal parameter"
  | illegalCommand => "illegal command"

def Parsed.toJson (p : Parsed) : Value :=
  .object [("status", .string p.status.name), ("command", .orNull (p.command?.map Command.name)),
    ("pargv", (p.store?.map Store.toJson).getD .null)]

def Completion.toJson (c : Completion) : Value :=
  .object [("command", .string c.command.name), ("status", .string c.status.name),
    ("candidates", c.candidates.toJson), ("prefix", .string c.typed)]

end LineMatch
