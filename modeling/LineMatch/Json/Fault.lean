/-
  LineMatch.Json.Fault — why a text is not the JSON that was expected.

  A text can break JSON's syntax, end too early, or be well formed but of the wrong
  shape. Faults of the first two kinds carry the place they were met at.
-/

import LineMatch.Json.Value

namespace LineMatch.Json

/-! ## Syntax -/

inductive SyntaxFault where
  | endInList | endInObject | endInString | endInValue
  | expectedColon | expectedListCommaOrEnd | expectedObjectCommaOrEnd | expectedWord | expectedValue
  | invalidEscape | invalidNumber | numberOutOfRange | controlCharacter | keyNotString | loneSurrogate
  | trailingComma | trailingCharacters | unexpectedEndOfHexEscape | tooDeep
  deriving Repr, DecidableEq

namespace SyntaxFault

def message : SyntaxFault → String
  | endInList => "EOF while parsing a list"
  | endInObject => "EOF while parsing an object"
  | endInString => "EOF while parsing a string"
  | endInValue => "EOF while parsing a value"
  | expectedColon => "expected `:`"
  | expectedListCommaOrEnd => "expected `,` or `]`"
  | expectedObjectCommaOrEnd => "expected `,` or `\x7d`"
  | expectedWord => "expected ident"
  | expectedValue => "expected value"
  | invalidEscape => "invalid escape"
  | invalidNumber => "invalid number"
  | numberOutOfRange => "number out of range"
  | controlCharacter => "control character (\\u0000-\\u001F) found while parsing a string"
  | keyNotString => "key must be a string"
  | loneSurrogate => "lone leading surrogate in hex escape"
  | trailingComma => "trailing comma"
  | trailingCharacters => "trailing characters"
  | unexpectedEndOfHexEscape => "unexpected end of hex escape"
  | tooDeep => "recursion limit exceeded"

def isEnd : SyntaxFault → Bool
  | endInList | endInObject | endInString | endInValue => true
  | _ => false

end SyntaxFault

/-! ## Shape -/

/-- What stands where something else was expected. -/
inductive Found where
  | null
  | bool (b : Bool)
  | number (n : Number)
  | string (s : String)
  | list
  | object
  deriving Repr, DecidableEq

def Value.found : Value → Found
  | null => .null
  | bool b => .bool b
  | number n => .number n
  | string s => .string s
  | array _ => .list
  | object _ => .object

def Found.message : Found → String
  | null => "null"
  | bool b => "boolean `" ++ Value.boolText b ++ "`"
  | number (.real isNegative x) => "floating point `" ++ (Number.real isNegative x).text ++ "`"
  | number n => "integer `" ++ n.text ++ "`"
  | string s => "string " ++ Text.quoted s
  | list => "sequence"
  | object => "map"

inductive ShapeFault where
  | missingField (name : String)
  | duplicateField (name : String)
  | unknownVariant (name : String) (known : List String)
  | wrongType (found : Found) (expected : String)
  | outOfRange (found : Found) (expected : String)
  | wrongLength (length : Nat) (expected : String)
  /-- A rule of the thing being read is broken. -/
  | rule (message : String)
  deriving Repr, DecidableEq

def ShapeFault.message : ShapeFault → String
  | missingField name => "missing field `" ++ name ++ "`"
  | duplicateField name => "duplicate field `" ++ name ++ "`"
  | unknownVariant name known =>
    "unknown variant `" ++ name ++ "`, expected one of " ++
      ", ".intercalate (known.map fun k => "`" ++ k ++ "`")
  | wrongType found expected => "invalid type: " ++ found.message ++ ", expected " ++ expected
  | outOfRange found expected => "invalid value: " ++ found.message ++ ", expected " ++ expected
  | wrongLength length expected => "invalid length " ++ toString length ++ ", expected " ++ expected
  | rule message => message

/-! ## Faults -/

inductive Fault where
  | syntaxAt (cause : SyntaxFault) (line column : Nat)
  | shape (cause : ShapeFault)
  deriving Repr, DecidableEq

inductive Fault.Kind where
  | data | malformed | ended
  deriving Repr, DecidableEq

namespace Fault

def kind : Fault → Kind
  | syntaxAt cause _ _ => if cause.isEnd then .ended else .malformed
  | shape _ => .data

def message : Fault → String
  | syntaxAt cause _ _ => cause.message
  | shape cause => cause.message

/-- The line a fault of syntax was met on, counted from one. -/
def line? : Fault → Option Nat
  | syntaxAt _ line _ => some line
  | shape _ => none

/-- The message with the place it was met at, where there is one. -/
def fullMessage : Fault → String
  | syntaxAt cause line column =>
    cause.message ++ " at line " ++ toString line ++ " column " ++ toString column
  | shape cause => cause.message

end Fault

end LineMatch.Json
