/-
  LineMatch.Cli.Usage — what the program says about itself.
-/

import LineMatch.Cli.Arguments

namespace LineMatch.Cli

def programName : String := "shellkit"

def versionText : String := programName ++ " 0.1.0\n"

def verbHelp : Verb → String
  | .parse => "Match a command line and print the parameter values"
  | .complete => "List the parameters that can fill the word being typed at the end of a line"
  | .check => "Load a grammar and report any problems"

def helpHelp : String := "Print this message or the help of the given subcommand(s)"

def outputHelp : String :=
  "Output mode: \"pretty\" for coloured terminal output, \"json\" for machine-readable JSON. Defaults to " ++
    "\"pretty\" when stdout is a TTY, \"json\" otherwise [possible values: pretty, json]"

/-- A column of names, as wide as the longest, and what they mean. -/
def table (rows : List (String × String)) : String :=
  let width := rows.foldl (fun n row => max n row.1.length) 0
  String.join (rows.map fun (name, meaning) =>
    "  " ++ name ++ String.ofList (List.replicate (width - name.length) ' ') ++ "  " ++ meaning ++ "\n")

def block (title body : String) : String := "\n" ++ title ++ ":\n" ++ body

def sessionOptions : String :=
  block "Options" (table
    [("-g, --grammar <GRAMMAR>", "Grammar file (JSON, `//` and `/* */` comments allowed)"),
     ("    --output <OUTPUT>", outputHelp),
     ("    --var <NAME=VALUE>",
      "Session variable visible to `$\x7bNAME\x7d` in tests and actions. May be repeated"),
     ("    --interpreter <PROGRAM>", "Interpreter for action scripts, invoked as `PROGRAM -c SCRIPT`"),
     ("-h, --help", "Print help")])

def lineHelp (meaning : String) : String := block "Arguments" (table [("<LINE>", meaning)])

def usage (rest : String) : String := "\nUsage: " ++ programName ++ " " ++ rest ++ "\n"

def helpText : Topic → String
  | .program =>
    "Match and complete command lines against a " ++ programName ++ " parameter grammar\n" ++
      usage "[OPTIONS] <COMMAND>" ++
      block "Commands" (table (Verb.names.map (fun (n, v) => (n, verbHelp v)) ++ [("help", helpHelp)])) ++
      block "Options" (table
        [("    --output <OUTPUT>", outputHelp), ("-h, --help", "Print help"),
         ("-V, --version", "Print version")])
  | .verb .parse =>
    verbHelp .parse ++ "\n" ++ usage "parse [OPTIONS] --grammar <GRAMMAR> <LINE>" ++
      lineHelp "The line to match, as one argument" ++ sessionOptions
  | .verb .complete =>
    verbHelp .complete ++ "\n" ++ usage "complete [OPTIONS] --grammar <GRAMMAR> <LINE>" ++
      lineHelp "The line typed so far; end it with a space to complete a new word" ++ sessionOptions
  | .verb .check =>
    verbHelp .check ++ "\n" ++ usage "check [OPTIONS] --grammar <GRAMMAR>" ++
      block "Options" (table
        [("-g, --grammar <GRAMMAR>", "Grammar file to check"), ("    --output <OUTPUT>", outputHelp),
         ("-h, --help", "Print help")])
  | .help =>
    helpHelp ++ "\n" ++ usage "help [COMMAND]..." ++
      block "Arguments" (table [("[COMMAND]...", "Print help for the subcommand(s)")])

end LineMatch.Cli
