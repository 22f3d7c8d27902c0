/-
  LineMatch.Token — the words of a command line.

  Words stand between ASCII blanks. Double quotes join what is inside them, blanks
  included, to the word around them and are dropped; inside them a backslash takes the
  next character as it is. `tokens` reads a line, `fold` writes words as one line again,
  with the quoted ones in quotes. A token keeps its place in the line, in bytes.
-/

import LineMatch.Text.Blank
import LineMatch.Text.Utf8

namespace LineMatch

open LineMatch.Text (isAsciiBlank width)

structure Token where
  text : String
  /-- Whether any part of the word was in quotes. -/
  isQuoted : Bool
  /-- The bytes before the word and the bytes up to its end. -/
  start : Nat
  stop : Nat
  deriving Repr, DecidableEq

namespace Token

/-! ## Reading -/

/-- Where reading stands inside a word. -/
inductive Quoting where
  | outside | inside | escaped
  deriving DecidableEq, Repr

/-- Where reading stands after a character. -/
def Quoting.next (q : Quoting) (c : Char) : Quoting :=
  match q with
  | .outside => if c = '"' then .inside else .outside
  | .inside => if c = '"' then .outside else if c = '\\' then .escaped else .inside
  | .escaped => .inside

/-- What a character adds to the text of the word. -/
def Quoting.yield (q : Quoting) (c : Char) : List Char :=
  match q with
  | .outside => if c = '"' then [] else [c]
  | .inside => if c = '"' ∨ c = '\\' then [] else [c]
  | .escaped => [c]

/-- Whether a character opens or closes quotes. -/
def Quoting.isMark (q : Quoting) (c : Char) : Bool := q != .escaped && c == '"'

/-- The part of a word from some place on: its text, whether quotes opened or closed in
    it, and where it stops. -/
structure Tail where
  text : List Char
  isQuoted : Bool
  stop : Nat
  deriving Repr, DecidableEq

/-- A character before the tail of its word. -/
def Tail.cons (q : Quoting) (c : Char) (t : Tail) : Tail :=
  ⟨q.yield c ++ t.text, q.isMark c || t.isQuoted, t.stop⟩

def ofTail (start : Nat) (t : Tail) : Token := ⟨String.ofList t.text, t.isQuoted, start, t.stop⟩

mutual

/-- The tokens of a text that begins between words, `pos` bytes into the line. -/
def gap (pos : Nat) : List Char → List Token
  | [] => []
  | c :: cs =>
    if isAsciiBlank c then gap (pos + width c) cs
    else
      let (t, ts) := word (Quoting.outside.next c) (pos + width c) cs
      ofTail pos (t.cons .outside c) :: ts

/-- The tail of the word a text begins in, and the tokens after it. -/
def word (q : Quoting) (pos : Nat) : List Char → Tail × List Token
  | [] => (⟨[], false, pos⟩, [])
  | c :: cs =>
    if q = .outside ∧ isAsciiBlank c then (⟨[], false, pos⟩, gap (pos + width c) cs)
    else
      let (t, ts) := word (q.next c) (pos + width c) cs
      (t.cons q c, ts)

end

end Token

/-- The words of a line. -/
def tokens (line : String) : List Token := Token.gap 0 line.toList

/-! ## Writing -/

/-- Puts a backslash before each quote and backslash. -/
def escapeChars (cs : List Char) : List Char :=
  cs.flatMap fun c => if c = '"' ∨ c = '\\' then ['\\', c] else [c]

def escape (text : String) : String := String.ofList (escapeChars text.toList)

/-- A word as it is written back into a line. -/
def Token.written (t : Token) : String :=
  if t.isQuoted then "\"" ++ escape t.text ++ "\"" else escape t.text

/-- Words as one line. -/
def fold (ts : List Token) : String := " ".intercalate (ts.map Token.written)

end LineMatch
