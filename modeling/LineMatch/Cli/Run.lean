/-
  LineMatch.Cli.Run — the program as a function of its arguments and the files there are.
-/

import LineMatch.Cli.Report
import LineMatch.Cli.Usage
import LineMatch.Session.Programs

namespace LineMatch.Cli

def Task.grammarPath : Task → String
  | parse o _ | complete o _ => o.grammar
  | check path => path

/-- The executor for the scripts of a session. -/
def SessionOptions.executor (o : SessionOptions) : Executor :=
  let usual : RunConfig := {}
  .ofPrograms { usual with program := o.interpreter.getD usual.program }

def SessionOptions.session (o : SessionOptions) (g : Grammar) : Session :=
  o.vars.foldl (fun s (name, value) => s.setVar name value) { grammar := g }

def Task.report (format : Format) (g : Grammar) : Task → Report
  | parse o line => ofParsed format ((o.session g).parse o.executor line).1
  | complete o line => ofCompletion format ((o.session g).complete? o.executor line).1
  | check path => ofGrammar format path g

/-- What the program does. `content` is what reading a file comes to, `usual` the format
    when none is asked for. -/
def run (content : String → Except Grammar.FileFault String) (usual : Format) (args : List String) :
    Report :=
  match Request.ofArguments args with
  | .misuse => { exit := 2, stderr := helpText .program }
  | .help about => { stdout := helpText about }
  | .version => { stdout := versionText }
  | .run task format =>
    let format := format.getD usual
    match Grammar.ofFile task.grammarPath (content task.grammarPath) with
    | .ok g => task.report format g
    | .error f => ofFailure format task.grammarPath f

/-- The file the program needs, if any. -/
def neededFile? (args : List String) : Option String :=
  match Request.ofArguments args with
  | .run task _ => some task.grammarPath
  | _ => none

end LineMatch.Cli
