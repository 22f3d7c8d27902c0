/-
  LineMatch.Grammar.Load — grammars from texts and files.

  A text is stripped of comments, read and checked. `Failure` says why no grammar came
  of it.
-/

import LineMatch.Comments
import LineMatch.Grammar.Check
import LineMatch.Grammar.Reader

namespace LineMatch.Grammar

/-- Why a file could not be read. -/
inductive FileFault where
  | notFound
  | nameTooLong
  | nulInName
  | other (message : String)
  deriving Repr, DecidableEq

def FileFault.message : FileFault → String
  | notFound => "No such file or directory (os error 2)"
  | nameTooLong => "File name too long (os error 36)"
  | nulInName => "file name contained an unexpected NUL byte"
  | other message => message

/-- The most bytes of a path, and of one name in it. -/
def maxPathBytes : Nat := 4095

def maxNameBytes : Nat := 255

/-- What opening a path that names no file comes to. -/
def FileFault.ofMissing (path : String) : FileFault :=
  if path.toList.contains '\x00' then nulInName
  else if maxPathBytes < path.utf8ByteSize ∨
      (path.splitOn "/").any (fun name => maxNameBytes < name.utf8ByteSize) then nameTooLong
  else notFound

inductive Failure where
  | file (path : String) (cause : FileFault)
  | json (cause : Json.Fault)
  | defect (cause : Defect)
  deriving Repr, DecidableEq

def Failure.message : Failure → String
  | file path cause => "cannot read grammar " ++ path ++ ": " ++ cause.message
  | json cause => "invalid grammar JSON: " ++ cause.message
  | defect cause => cause.message

/-- Reads a grammar without checking it. -/
def readText (text : String) : Except Failure Grammar :=
  (Json.Read.whole Grammar.read (Comments.strip text)).mapError .json

/-- Reads and checks a grammar. -/
def ofText (text : String) : Except Failure Grammar := do
  let g ← readText text
  (check g).mapError .defect
  pure g

/-- The grammar of a file, given its path and what reading it came to. -/
def ofFile (path : String) (content : Except FileFault String) : Except Failure Grammar := do
  let text ← content.mapError (.file path)
  ofText text

end LineMatch.Grammar
