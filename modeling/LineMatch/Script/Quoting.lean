/-
  LineMatch.Script.Quoting — what quotes and backslashes do to the characters of a script.

  A character stands outside quotes, in single quotes, in double quotes or after a
  backslash. Quote marks and the backslashes that escape are taken away (`Quoting.yield`);
  what is left is marked with how it was written, for it is only outside quotes that a
  character can end a word, be an operator or stand for others. Comments are left out.
-/

namespace LineMatch.Script

/-- Where reading stands. -/
inductive Quoting where
  | bare
  /-- After a backslash outside quotes. -/
  | escaped
  | single
  | double
  /-- After a backslash in double quotes. -/
  | doubleEscaped
  deriving DecidableEq, Repr, Inhabited

/-- A character of a script with how it was written. -/
inductive Mark where
  /-- Outside quotes. -/
  | bare (c : Char)
  /-- In double quotes, where a dollar sign still refers to a value. -/
  | double (c : Char)
  /-- As itself and nothing else. -/
  | literal (c : Char)
  /-- The beginning of quotes: a word, even with nothing in them. -/
  | opening
  deriving DecidableEq, Repr, Inhabited

/-- The character of a mark outside quotes. -/
def Mark.bare? : Mark → Option Char
  | bare c => some c
  | _ => none

namespace Quoting

/-- The characters that a backslash escapes in double quotes. -/
def isDoubleSpecial (c : Char) : Bool := c == '$' || c == '`' || c == '"' || c == '\\'

def next (q : Quoting) (c : Char) : Quoting :=
  match q with
  | bare => if c = '\\' then escaped else if c = '\'' then single else if c = '"' then double else bare
  | escaped => bare
  | single => if c = '\'' then bare else single
  | double => if c = '"' then bare else if c = '\\' then doubleEscaped else double
  | doubleEscaped => double

/-- What is left of a character. A backslash takes a line feed after it away. -/
def yield (q : Quoting) (c : Char) : List Mark :=
  match q with
  | bare => if c = '\\' then [] else if c = '\'' ∨ c = '"' then [.opening] else [.bare c]
  | escaped => if c = '\n' then [] else [.literal c]
  | single => if c = '\'' then [] else [.literal c]
  | double => if c = '"' ∨ c = '\\' then [] else [.double c]
  | doubleEscaped =>
    if c = '\n' then [] else if isDoubleSpecial c then [.literal c] else [.literal '\\', .literal c]

end Quoting

/-- The characters that end a word outside quotes. -/
def endsWord (c : Char) : Bool := [' ', '\t', '\n', ';', '&', '|', '(', ')', '<', '>'].contains c

mutual

/-- The marks of a script from some place on; nothing when its quotes do not end. `fresh`
    says that no word has begun. -/
def marksFrom (q : Quoting) (fresh : Bool) : List Char → Option (List Mark)
  | [] =>
    match q with
    | .bare => some []
    | .escaped => some [.literal '\\']
    | .single | .double | .doubleEscaped => none
  | c :: cs =>
    if q = .bare ∧ fresh ∧ c = '#' then comment cs
    else (marksFrom (q.next c) (q == .bare && endsWord c) cs).map (q.yield c ++ ·)

/-- The marks of a script from inside a comment on. -/
def comment : List Char → Option (List Mark)
  | [] => some []
  | c :: cs => if c = '\n' then (marksFrom .bare true cs).map (.bare c :: ·) else comment cs

end

def marks (script : List Char) : Option (List Mark) := marksFrom .bare true script

end LineMatch.Script
