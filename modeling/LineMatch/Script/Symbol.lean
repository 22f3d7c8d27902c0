/-
  LineMatch.Script.Symbol — the words and operators of a script.

  Blanks and operators outside quotes end a word; an operator is as long as it can be.
  Digits right before a redirection are its stream and no word.
-/

import LineMatch.Number.Integer
import LineMatch.Script.Quoting

namespace LineMatch.Script

abbrev Word := List Mark

inductive Symbol where
  | word (w : Word)
  | newline | semicolon | doubleSemicolon | ampersand | doubleAmpersand | bar | doubleBar
  | openParen | closeParen
  /-- Towards or from what the next word names. -/
  | redirect (stream : Option Nat) (isInput : Bool)
  deriving DecidableEq, Repr, Inhabited

/-- The text of a word without anything quoted in it. -/
def plainText? (w : Word) : Option String := (w.mapM Mark.bare?).map String.ofList

/-- A word whose marks were collected in reverse, before other symbols. -/
def endWord (marks : Word) (rest : List Symbol) : List Symbol :=
  if marks.isEmpty then rest else .word marks.reverse :: rest

/-- A redirection right after the marks of a word, collected in reverse. -/
def endStream (marks : Word) (isInput : Bool) (rest : List Symbol) : List Symbol :=
  match (plainText? marks.reverse).bind fun t => Number.natOf? t.toList with
  | some n => .redirect (some n) isInput :: rest
  | none => endWord marks (.redirect none isInput :: rest)

/-- The symbols from some place on; `word` holds the marks of the word there, in reverse. -/
def symbolsFrom (word : Word) : List Mark → List Symbol
  | [] => endWord word []
  | .bare ' ' :: ms => endWord word (symbolsFrom [] ms)
  | .bare '\t' :: ms => endWord word (symbolsFrom [] ms)
  | .bare '\n' :: ms => endWord word (.newline :: symbolsFrom [] ms)
  | .bare ';' :: .bare ';' :: ms => endWord word (.doubleSemicolon :: symbolsFrom [] ms)
  | .bare ';' :: ms => endWord word (.semicolon :: symbolsFrom [] ms)
  | .bare '&' :: .bare '&' :: ms => endWord word (.doubleAmpersand :: symbolsFrom [] ms)
  | .bare '&' :: ms => endWord word (.ampersand :: symbolsFrom [] ms)
  | .bare '|' :: .bare '|' :: ms => endWord word (.doubleBar :: symbolsFrom [] ms)
  | .bare '|' :: ms => endWord word (.bar :: symbolsFrom [] ms)
  | .bare '(' :: ms => endWord word (.openParen :: symbolsFrom [] ms)
  | .bare ')' :: ms => endWord word (.closeParen :: symbolsFrom [] ms)
  | .bare '>' :: .bare '>' :: ms => endStream word false (symbolsFrom [] ms)
  | .bare '>' :: .bare '&' :: ms => endStream word false (symbolsFrom [] ms)
  | .bare '>' :: ms => endStream word false (symbolsFrom [] ms)
  | .bare '<' :: ms => endStream word true (symbolsFrom [] ms)
  | m :: ms => symbolsFrom (m :: word) ms

/-- Whether a mark asks for the output of a command, which scripts here do not. -/
def isBackquote : Mark → Bool
  | .bare '`' | .double '`' => true
  | _ => false

/-- The symbols of a script; nothing when it cannot be read. -/
def symbols? (script : String) : Option (List Symbol) :=
  (marks script.toList).bind fun ms => if ms.any isBackquote then none else some (symbolsFrom [] ms)

end LineMatch.Script
