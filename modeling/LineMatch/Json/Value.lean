/-
  LineMatch.Json.Value — JSON values and their text.

  Members of an object keep their order. `compact` writes a value without blanks,
  `pretty` one member or element a line, indented by two spaces. In strings the quote,
  the backslash and the control characters are escaped, all else stands as it is.
-/

import LineMatch.Number.Binary64
import LineMatch.Text.Quoted

namespace LineMatch.Json

open LineMatch.Number (Binary64)
open LineMatch.Text (hexDigits)

/-- A whole number of 64 bits, or a binary fraction. `negative n` is `-n`. -/
inductive Number where
  | nat (n : Nat)
  | negative (n : Nat)
  | real (isNegative : Bool) (x : Binary64)
  deriving Repr, DecidableEq, Inhabited

namespace Number

def ofInt : Int → Number
  | .ofNat n => nat n
  | .negSucc n => negative (n + 1)

def text : Number → String
  | nat n => toString n
  | negative n => "-" ++ toString n
  | real isNegative x => (if isNegative then "-" else "") ++ x.text

end Number

inductive Value where
  | null
  | bool (b : Bool)
  | number (n : Number)
  | string (s : String)
  | array (elements : List Value)
  | object (members : List (String × Value))
  deriving Repr, Inhabited

namespace Value

def nat (n : Nat) : Value := number (.nat n)

def int (i : Int) : Value := number (.ofInt i)

/-- The string, or `null` when there is none. -/
def orNull : Option String → Value
  | some s => string s
  | none => null

def strings (ss : List String) : Value := array (ss.map string)

/-! ## Text -/

def escapeChar (c : Char) : String :=
  if c = '"' then "\\\""
  else if c = '\\' then "\\\\"
  else if c = '\n' then "\\n"
  else if c = '\r' then "\\r"
  else if c = '\t' then "\\t"
  else if c = '\x08' then "\\b"
  else if c = '\x0c' then "\\f"
  else if c.toNat < 0x20 then "\\u00" ++ (if c.toNat < 0x10 then "0" else "") ++ hexDigits c.toNat
  else c.toString

def stringText (s : String) : String := "\"" ++ String.join (s.toList.map escapeChar) ++ "\""

def boolText (b : Bool) : String := if b then "true" else "false"

mutual

def compact : Value → String
  | null => "null"
  | bool b => boolText b
  | number n => n.text
  | string s => stringText s
  | array [] => "[]"
  | array (v :: vs) => "[" ++ compact v ++ compactElements vs ++ "]"
  | object [] => "\x7b\x7d"
  | object ((k, v) :: ms) => "\x7b" ++ stringText k ++ ":" ++ compact v ++ compactMembers ms ++ "\x7d"

def compactElements : List Value → String
  | [] => ""
  | v :: vs => "," ++ compact v ++ compactElements vs

def compactMembers : List (String × Value) → String
  | [] => ""
  | (k, v) :: ms => "," ++ stringText k ++ ":" ++ compact v ++ compactMembers ms

end

/-- A new line indented for nesting depth `depth`. -/
def newLine (depth : Nat) : String := "\n" ++ String.ofList (List.replicate (2 * depth) ' ')

mutual

/-- The text of a value at nesting depth `depth`. -/
def prettyAt (depth : Nat) : Value → String
  | null => "null"
  | bool b => boolText b
  | number n => n.text
  | string s => stringText s
  | array [] => "[]"
  | array (v :: vs) =>
    "[" ++ newLine (depth + 1) ++ prettyAt (depth + 1) v ++ prettyElements (depth + 1) vs ++ newLine depth ++ "]"
  | object [] => "\x7b\x7d"
  | object ((k, v) :: ms) =>
    "\x7b" ++ newLine (depth + 1) ++ stringText k ++ ": " ++ prettyAt (depth + 1) v ++
      prettyMembers (depth + 1) ms ++ newLine depth ++ "\x7d"

def prettyElements (depth : Nat) : List Value → String
  | [] => ""
  | v :: vs => "," ++ newLine depth ++ prettyAt depth v ++ prettyElements depth vs

def prettyMembers (depth : Nat) : List (String × Value) → String
  | [] => ""
  | (k, v) :: ms => "," ++ newLine depth ++ stringText k ++ ": " ++ prettyAt depth v ++ prettyMembers depth ms

end

def pretty (v : Value) : String := prettyAt 0 v

/-! ## Access -/

/-- The first member of an object with this name. -/
def member? (v : Value) (name : String) : Option Value :=
  match v with
  | object ms => ms.lookup name
  | _ => none

def string? : Value → Option String
  | string s => some s
  | _ => none

def nat? : Value → Option Nat
  | number (.nat n) => some n
  | _ => none

def array? : Value → Option (List Value)
  | array vs => some vs
  | _ => none

end Value

end LineMatch.Json
