/-
  LineMatch.Main — the command line.
-/

import LineMatch.Cli.Run

namespace LineMatch.Main

open LineMatch.Grammar (FileFault)

/-- Why a file could not be read. -/
def faultOf (e : IO.Error) : FileFault :=
  match e with
  | .noFileOrDirectory _ _ _ => .notFound
  | e => .other (toString e)

def readFile (path : String) : IO (Except FileFault String) := do
  try
    let bytes ← IO.FS.readBinFile path
    match String.fromUTF8? bytes with
    | some text => pure (.ok text)
    | none => pure (.error (.other "stream did not contain valid UTF-8"))
  catch e => pure (.error (faultOf e))

end LineMatch.Main

open LineMatch in
def main (args : List String) : IO UInt32 := do
  let content ← match Cli.neededFile? args with
    | some path => Main.readFile path
    | none => pure (.ok "")
  let stdout ← IO.getStdout
  let usual := if ← stdout.isTty then Cli.Format.pretty else .json
  let report := Cli.run (fun _ => content) usual args
  stdout.putStr report.stdout
  stdout.flush
  (← IO.getStderr).putStr report.stderr
  pure report.exit.toUInt32
