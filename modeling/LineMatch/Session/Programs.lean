/-
  LineMatch.Session.Programs — the executor that runs scripts.

  The script of an action is expanded with its values escaped and given to a program, the
  one the action names or the usual one. Here a program is what it makes of a script:
  a shell runs it, and a few others do the same whatever they are given. The bytes
  written are read as text, and line ends at the end are cut off unless they are wanted.
-/

import LineMatch.Script.Run
import LineMatch.Session.Executor
import LineMatch.Session.Expansion

namespace LineMatch

/-- How scripts are run. -/
structure RunConfig where
  program : String := "/bin/sh"
  /-- Whether line ends at the end of the output are cut off. -/
  trims : Bool := true
  deriving Repr, DecidableEq

namespace Programs

/-- The names of the shells. -/
def shells : List String :=
  ["/bin/sh", "/usr/bin/sh", "sh", "/bin/dash", "/usr/bin/dash", "dash", "/bin/bash", "/usr/bin/bash", "bash"]

/-- What the other programs come to, by their names without a directory. -/
def others (script : String) : List (String × Script.Effect) :=
  [("true", {}), ("false", { status := 1 }), ("cat", { status := 1 }),
   ("echo", { bytes := Text.encode ("-c " ++ script ++ "\n").toList })]

/-- The directories that programs are in. -/
def directories : List String := ["", "/bin/", "/usr/bin/"]

/-- The variables of a script from the start. -/
def environment (program : String) : List (String × String) :=
  [("0", program), ("HOME", "/root")]

/-- What a program makes of a script. -/
def start (program script : String) : Except StartFault Script.Machine :=
  if (program ++ script).toList.contains '\x00' then .error .nulInArgument
  else if shells.contains program then .ok (Script.runScript (environment program) script)
  else match (others script).find? fun (name, _) => directories.any fun d => d ++ name == program with
    | some (_, e) => .ok (({} : Script.Machine).apply e)
    | none => .error .notFound

def isLineEnd (c : Char) : Bool := c == '\n' || c == '\r'

/-- A text without the line ends at its end. -/
def trimEnd (cs : List Char) : List Char := (cs.reverse.dropWhile isLineEnd).reverse

/-- What the end of a script is to the one who started it: `-1` if it was killed. -/
def outputOf (trims : Bool) (m : Script.Machine) : Output :=
  let text := Text.decodeLossy m.bytes
  { status := if m.flow = .killed then -1 else m.status,
    stdout := if trims then String.ofList (trimEnd text.toList) else text }

end Programs

def Executor.ofPrograms (config : RunConfig) : Executor := fun _ s =>
  match s.action? with
  | none => .error .noAction
  | some a =>
    let program := a.shell.getD config.program
    match Programs.start program (expand s .shell a.script) with
    | .ok m => .ok (Programs.outputOf config.trims m)
    | .error cause => .error (.start program cause)

end LineMatch
