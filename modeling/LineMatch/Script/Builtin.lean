/-
  LineMatch.Script.Builtin — the commands that scripts can use.

  A command is given its words, the input and what it may ask about the shell, and comes
  to a status, the bytes it writes and whether the script goes on. A name that is none
  of these commands has the status 127.
-/

import LineMatch.Session.Condition

namespace LineMatch.Script

open LineMatch.Text (encode encodeChar)

/-- Whether a script goes on. -/
inductive Flow where
  | running | ended
  /-- By a signal. -/
  | killed
  deriving DecidableEq, Repr, Inhabited

structure Effect where
  status : Nat := 0
  bytes : List Nat := []
  flow : Flow := .running
  deriving Repr, DecidableEq

/-! ## Writing -/

def isOctalDigit (c : Char) : Bool := '0' ≤ c && c ≤ '7'

/-- The byte that a letter stands for after a backslash. -/
def escapeByte? : Char → Option Nat
  | '\\' => some 92
  | 'a' => some 7
  | 'b' => some 8
  | 'f' => some 12
  | 'n' => some 10
  | 'r' => some 13
  | 't' => some 9
  | 'v' => some 11
  | _ => none

/-- A part of what a format writes. -/
inductive Directive where
  | byte (n : Nat)
  /-- The next argument. -/
  | argument (letter : Char)
  | broken
  deriving DecidableEq, Repr

/-- Where reading stands in a format. -/
inductive InFormat where
  | text
  | percent
  | backslash
  /-- In at most `left` more octal digits. -/
  | octal (value left : Nat)
  deriving DecidableEq, Repr

/-- A character between directives. -/
def formatText (c : Char) : List Directive × InFormat :=
  if c = '%' then ([], .percent)
  else if c = '\\' then ([], .backslash)
  else ((encodeChar c).map .byte, .text)

def argumentLetters : List Char := ['s', 'b', 'c', 'd', 'i', 'u', 'o', 'x', 'X']

/-- What a character of a format adds, and where reading stands after it. -/
def formatStep (state : InFormat) (c : Char) : List Directive × InFormat :=
  match state with
  | .text => formatText c
  | .percent =>
    if c = '%' then ([.byte 37], .text)
    else if argumentLetters.contains c then ([.argument c], .text)
    else ([.broken], .text)
  | .backslash =>
    if isOctalDigit c then ([], .octal (c.toNat - 48) 2)
    else match escapeByte? c with
      | some n => ([.byte n], .text)
      | none => (.byte 92 :: (encodeChar c).map .byte, .text)
  | .octal value left =>
    if left ≠ 0 ∧ isOctalDigit c then ([], .octal (value * 8 + (c.toNat - 48)) (left - 1))
    else (.byte (value % 256) :: (formatText c).1, (formatText c).2)

/-- What the end of a format adds. -/
def formatEnd : InFormat → List Directive
  | .text => []
  | .percent => [.broken]
  | .backslash => [.byte 92]
  | .octal value _ => [.byte (value % 256)]

def directivesFrom (state : InFormat) : List Char → List Directive
  | [] => formatEnd state
  | c :: cs => (formatStep state c).1 ++ directivesFrom (formatStep state c).2 cs

def directives (format : String) : List Directive := directivesFrom .text format.toList

/-- An argument as a number, zero where it is none. -/
def numberOf (text : String) : Int × Nat :=
  if text.isEmpty then (0, 0)
  else match Number.signed? text.toList with
    | some i => (i, 0)
    | none => (0, 1)

/-- A number modulo the unsigned range, as unsigned formats see it. -/
def asUnsigned (i : Int) : Nat := (i % (Number.maxUnsigned + 1 : Nat)).toNat

/-- An argument in the way a letter asks for, and the status that comes of it. -/
def formatted (letter : Char) (text : String) : List Nat × Nat :=
  let (i, status) := numberOf text
  match letter with
  | 's' | 'b' => (encode text.toList, 0)
  | 'c' => ((encode text.toList).take 1, 0)
  | 'o' => (encode (Nat.toDigits 8 (asUnsigned i)), status)
  | 'x' => (encode (Nat.toDigits 16 (asUnsigned i)), status)
  | 'X' => (encode (Nat.toDigits 16 (asUnsigned i)) |>.map fun b => if 97 ≤ b then b - 32 else b, status)
  | 'u' => (encode (toString (asUnsigned i)).toList, status)
  | _ => (encode (toString i).toList, status)

/-- One pass over a format; gives what it wrote with the arguments left over. -/
def formatOnce : List Directive → List String → Effect × List String
  | [], args => ({}, args)
  | .byte n :: ds, args =>
    let (e, rest) := formatOnce ds args
    ({ e with bytes := n :: e.bytes }, rest)
  | .broken :: _, _ => ({ status := 2 }, [])
  | .argument letter :: ds, args =>
    let (bytes, status) := formatted letter (args.headD "")
    let (e, rest) := formatOnce ds args.tail
    ({ e with bytes := bytes ++ e.bytes, status := max status e.status }, rest)

def Directive.isArgument : Directive → Bool
  | argument _ => true
  | _ => false

/-- Passes over a format until no argument is left, `n` times at most. -/
def formatAll (ds : List Directive) : Nat → List String → Effect
  | 0, _ => {}
  | n + 1, args =>
    let (e, rest) := formatOnce ds args
    if rest.isEmpty || !ds.any Directive.isArgument then e
    else
      let more := formatAll ds n rest
      { more with bytes := e.bytes ++ more.bytes, status := max e.status more.status }

def printf : List String → Effect
  | [] => { status := 2 }
  | format :: args => formatAll (directives format) (args.length + 1) args

/-- The words between spaces, with the escapes that begin with a backslash. -/
def echo (args : List String) : Effect :=
  let (words, ending) := match args with
    | "-n" :: rest => (rest, [])
    | _ => (args, [10])
  let written := directivesFrom .text ((" ".intercalate words).toList.flatMap fun c =>
    if c = '%' then ['%', '%'] else [c])
  { bytes := (written.filterMap fun d => match d with
      | .byte n => some n
      | .argument _ | .broken => none) ++ ending }

/-! ## Ending -/

/-- The number a script knows its own process by. -/
def ownProcess : String := "2"

/-- What `exit` comes to; `last` is the status of the command before. -/
def exit (last : Nat) : List String → Effect
  | [] => { status := last, flow := .ended }
  | n :: _ =>
    match Number.natOf? n.toList with
    | some n => { status := n % 256, flow := .ended }
    | none => { status := 2, flow := .ended }

/-- Whether these words, before the processes, ask for no signal. -/
def isHarmless (options : List String) : Bool := options.contains "-0" || options.contains "0"

def kill (args : List String) : Effect :=
  let options := args.takeWhile fun a => a.toList.head? == some '-' || a == "0"
  let processes := args.drop options.length
  if processes.contains ownProcess then if isHarmless options then {} else { flow := .killed }
  else { status := if processes.isEmpty then 2 else 1 }

/-! ## By name -/

def ofBool (b : Bool) : Effect := { status := if b then 0 else 1 }

/-- What a command comes to. -/
def perform (last : Nat) (input : List Nat) (name : String) (args : List String) : Effect :=
  match name with
  | ":" | "true" => {}
  | "false" => { status := 1 }
  | "printf" => printf args
  | "echo" => echo args
  | "exit" => exit last args
  | "kill" => kill args
  | "cat" => if args.all (· == "-") then { bytes := input } else { status := 1 }
  | "test" => ofBool (Condition.holdsWords args)
  | "[" => if args.getLast? = some "]" then ofBool (Condition.holdsWords args.dropLast) else { status := 2 }
  | _ => { status := 127 }

end LineMatch.Script
