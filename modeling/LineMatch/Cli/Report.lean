/-
  LineMatch.Cli.Report — what the program prints.

  Results go to standard output. In JSON each is one value, errors too; otherwise values
  are printed a line each, names in cyan, and the status goes to standard error in green,
  yellow or red.
-/

import LineMatch.Cli.Arguments
import LineMatch.Grammar.Load
import LineMatch.Line.Written

namespace LineMatch.Cli

open LineMatch.Json (Value)

/-- What a run of the program leaves behind. -/
structure Report where
  exit : Nat := 0
  stdout : String := ""
  stderr : String := ""
  deriving Repr, DecidableEq, Inhabited

/-! ## Colours -/

inductive Colour where
  | red | green | yellow | cyan
  deriving DecidableEq, Repr

def Colour.code : Colour → String
  | red => "31"
  | green => "32"
  | yellow => "33"
  | cyan => "36"

def paint (c : Colour) (text : String) : String := "\x1b[" ++ c.code ++ "m" ++ text ++ "\x1b[0m"

def statusColour : Status → Colour
  | .ok => .green
  | .incomplete => .yellow
  | .illegalParam | .illegalCommand => .red

/-! ## Results -/

def jsonLine (v : Value) : String := v.pretty ++ "\n"

def ofParsed (format : Format) (p : Parsed) : Report :=
  let exit := if p.status = .ok then 0 else 1
  match format with
  | .json => { exit := exit, stdout := jsonLine p.toJson }
  | .pretty =>
    let entries := (p.store?.map Store.entries).getD []
    let status := paint (statusColour p.status) p.status.message
    { exit := exit,
      stdout := String.join (entries.map fun e => paint .cyan e.name ++ " = " ++ e.value ++ "\n"),
      stderr := (match p.command? with
        | some c => c.name ++ ": " ++ status
        | none => status) ++ "\n" }

/-- The column that the help of candidates begins behind. -/
def wordWidth : Nat := 20

def padded (word : String) : String := word ++ String.ofList (List.replicate (wordWidth - word.length) ' ')

/-- A keyword as it is typed, any other parameter by its name in brackets, and its help. -/
def candidateLine (p : Param) : String :=
  let word := p.keyword?.getD ("<" ++ p.name ++ ">")
  match p.help with
  | some help => padded word ++ " " ++ help
  | none => word

def ofCompletion (format : Format) : Option Completion → Report
  | some c =>
    match format with
    | .json => { stdout := jsonLine c.toJson }
    | .pretty =>
      { stdout := String.join (c.candidates.entries.map fun e => candidateLine e.param ++ "\n"),
        stderr := if c.candidates.isEmpty then "no candidates\n" else "" }
  | none =>
    match format with
    | .json => { stdout := jsonLine (.object [("candidates", .array []), ("command", .null)]) }
    | .pretty => { stderr := "no command to complete\n" }

def ofGrammar (format : Format) (path : String) (g : Grammar) : Report :=
  match format with
  | .json =>
    { stdout := jsonLine (.object [("commands", .nat g.commands.length), ("file", .string path),
        ("ok", .bool true), ("ptypes", .nat g.types.length)]) }
  | .pretty =>
    { stderr := paint .green "grammar ok" ++ ": " ++ toString g.commands.length ++ " commands, " ++
        toString g.types.length ++ " types\n" }

/-! ## Errors -/

/-- A message about a grammar with what caused it. -/
def causes : Grammar.Failure → String
  | .json cause => "invalid grammar JSON: " ++ cause.fullMessage ++ ": " ++ cause.fullMessage
  | f => f.message

/-- A file that cannot be read, or a grammar in it that cannot be used. -/
def ofFailure (format : Format) (path : String) (f : Grammar.Failure) : Report :=
  let message := match f with
    | .file _ cause => "failed to read grammar file '" ++ path ++ "': " ++ cause.message
    | _ => "invalid grammar '" ++ path ++ "': " ++ causes f
  match format with
  | .json =>
    { exit := 1, stdout := jsonLine (.object [("error", .string "command_failed"),
        ("message", .string message), ("success", .bool false)]) }
  | .pretty =>
    let detail := match f with
      | .file _ _ => ""
      | _ => paint .red "grammar error" ++ ": " ++ f.message ++ "\n"
    { exit := 1, stderr := detail ++ "error: " ++ message ++ "\n" }

end LineMatch.Cli
