/-
  LineMatch.Json.Reader — reading a JSON text as a value of a known shape.

  A shape is a reader: strings, truth values, lists, records, one of several names, or
  any value at all. Records may be written as objects, whose unknown members are
  skipped, or as arrays of their fields. `levels` counts the containers that may still
  be opened inside one another; a value that is skipped may nest without limit.
-/

import LineMatch.Json.Cursor

namespace LineMatch.Json.Read

/-! ## Mismatches -/

/-- Refuses the next value, of which `expected` was wanted, by what it is. -/
def mismatch {α : Type} (expected : String) : Read α := do
  match ← peek with
  | some 'n' => drop; restOfWord ['u', 'l', 'l']; refuse (.wrongType .null expected)
  | some 't' => drop; restOfWord ['r', 'u', 'e']; refuse (.wrongType (.bool true) expected)
  | some 'f' => drop; restOfWord ['a', 'l', 's', 'e']; refuse (.wrongType (.bool false) expected)
  | some '-' => drop; let n ← number true; refuse (.wrongType (.number n) expected)
  | some '"' => drop; let s ← restOfString; refuse (.wrongType (.string s) expected)
  | some '[' => refuse (.wrongType .list expected)
  | some '{' => refuse (.wrongType .object expected)
  | some c =>
    if isDigit c then do
      let n ← number false
      refuse (.wrongType (.number n) expected)
    else failNext .expectedValue
  | none => failNext .expectedValue
where
  isDigit := LineMatch.Number.isDigit

/-! ## Scalars -/

/-- A string, described as `expected` in faults. -/
def stringAs (expected : String) : Read String := do
  match ← peekPastBlanks with
  | none => failNext .endInValue
  | some '"' => drop; restOfString
  | some _ => mismatch expected

def string : Read String := stringAs "a string"

def bool : Read Bool := do
  match ← peekPastBlanks with
  | none => failNext .endInValue
  | some 't' => drop; restOfWord ['r', 'u', 'e']; pure true
  | some 'f' => drop; restOfWord ['a', 'l', 's', 'e']; pure false
  | some _ => mismatch "a boolean"

def null : Read Unit := do
  match ← peekPastBlanks with
  | none => failNext .endInValue
  | some 'n' => drop; restOfWord ['u', 'l', 'l']
  | some _ => mismatch "unit"

/-- `null`, or a value. -/
def orNull {α : Type} (value : Read α) : Read (Option α) := do
  match ← peekPastBlanks with
  | some 'n' => drop; restOfWord ['u', 'l', 'l']; pure none
  | _ => do
    let a ← value
    pure (some a)

/-! ## Containers -/

/-- Opens a container, whose content may open one level less. -/
def descend {α : Type} (levels : Nat) (content : Nat → Read α) : Read α :=
  match levels with
  | 0 => failNext .tooDeep
  | n + 1 => do
    drop
    content n

/-- Whether another element follows; a comma before it is taken. -/
def hasElement (isFirst : Bool) : Read Bool := do
  match ← peekPastBlanks with
  | none => failNext .endInList
  | some ']' => pure false
  | some c =>
    if isFirst then pure true
    else if c = ',' then do
      drop
      match ← peekPastBlanks with
      | some ']' => failNext .trailingComma
      | some _ => pure true
      | none => failNext .endInValue
    else failNext .expectedListCommaOrEnd

/-- The elements up to the closing bracket, which is not taken. Each takes a character at
    least, so the length of the text is fuel enough. -/
def elements {α : Type} (element : Read α) : Nat → Bool → Read (List α)
  | 0, _ => failNext .endInList
  | fuel + 1, isFirst => do
    if ← hasElement isFirst then do
      let a ← element
      let as ← elements element fuel false
      pure (a :: as)
    else pure []

def closeList : Read Unit := do
  match ← peekPastBlanks with
  | some ']' => drop
  | some ',' => do
    drop
    match ← peekPastBlanks with
    | some ']' => failNext .trailingComma
    | _ => failNext .trailingCharacters
  | some _ => failNext .trailingCharacters
  | none => failNext .endInList

/-- A list whose elements get one level less. -/
def list {α : Type} (levels : Nat) (element : Nat → Read α) : Read (List α) := do
  match ← peekPastBlanks with
  | none => failNext .endInValue
  | some '[' => descend levels fun inner => do
    let as ← fun c => elements (element inner) (c.rest.length + 1) true c
    closeList
    pure as
  | some _ => mismatch "a sequence"

/-- Whether another member follows; a comma before it is taken, its quote is not. -/
def hasMember (isFirst : Bool) : Read Bool := do
  match ← peekPastBlanks with
  | none => failNext .endInObject
  | some '}' => pure false
  | some c =>
    if isFirst then if c = '"' then pure true else failNext .keyNotString
    else if c = ',' then do
      drop
      match ← peekPastBlanks with
      | some '"' => pure true
      | some '}' => failNext .trailingComma
      | some _ => failNext .keyNotString
      | none => failNext .endInValue
    else failNext .expectedObjectCommaOrEnd

def colon : Read Unit := do
  match ← peekPastBlanks with
  | some ':' => drop
  | some _ => failNext .expectedColon
  | none => failNext .endInObject

/-- The members up to the closing brace, which is not taken: `member` reads what follows
    a name and takes it into the draft. -/
def members {σ : Type} (member : σ → String → Read σ) : Nat → Bool → σ → Read σ
  | 0, _, _ => failNext .endInObject
  | fuel + 1, isFirst, draft => do
    if ← hasMember isFirst then do
      drop
      let name ← restOfString
      let draft ← member draft name
      members member fuel false draft
    else pure draft

def closeObject : Read Unit := do
  match ← peekPastBlanks with
  | some '}' => drop
  | some ',' => failNext .trailingComma
  | some _ => failNext .trailingCharacters
  | none => failNext .endInObject

/-- The members of an object, taken into a draft from `empty` on. -/
def object {σ : Type} (empty : σ) (member : σ → String → Read σ) : Read σ :=
  fun c => members member (c.rest.length + 1) true empty c

/-- A field of a record written as an array, if there is an element for it. -/
def position {α : Type} (isFirst : Bool) (value : Read α) : Read (Option α) := do
  if ← hasElement isFirst then do
    let a ← value
    pure (some a)
  else pure none

/-- A record, from an object or from an array of its fields. -/
def record {α : Type} (levels : Nat) (expected : String) (ofObject ofArray : Nat → Read α) : Read α := do
  match ← peekPastBlanks with
  | none => failNext .endInValue
  | some '[' => descend levels fun inner => do
    let a ← ofArray inner
    closeList
    pure a
  | some '{' => descend levels fun inner => do
    let a ← ofObject inner
    closeObject
    pure a
  | some _ => mismatch expected

/-- The value of a member that may occur once. -/
def once {α : Type} (known : Option α) (name : String) (value : Read α) : Read (Option α) := do
  if known.isSome then refuse (.duplicateField name)
  else do
    colon
    let a ← value
    pure (some a)

/-- The value of a member that must occur. -/
def required {α : Type} (known : Option α) (name : String) : Read α :=
  match known with
  | some a => pure a
  | none => refuse (.missingField name)

/-! ## One of several names -/

/-- The value that stands under a name in `known`; `listed` is how faults list the names. -/
def variantNamed {α : Type} (known : List (String × α)) (listed : List String) : Read α := do
  let name ← stringAs "variant identifier"
  match known.lookup name with
  | some a => pure a
  | none => refuse (.unknownVariant name listed)

/-- A name, alone or as the only member of an object with the value `null`. -/
def variant {α : Type} (levels : Nat) (known : List (String × α)) (listed : List String) : Read α := do
  match ← peekPastBlanks with
  | some '{' => descend levels fun _ => do
    let a ← variantNamed known listed
    colon
    null
    match ← peekPastBlanks with
    | some '}' => drop; pure a
    | some _ => failHere .expectedValue
    | none => failHere .endInObject
  | some '"' => variantNamed known listed
  | some _ => failNext .expectedValue
  | none => failNext .endInValue

/-! ## Any value -/

/-- Any value but a container that no level is left for. -/
def scalarOr (container : Read Value) : Read Value := do
  match ← peekPastBlanks with
  | none => failNext .endInValue
  | some 'n' => drop; restOfWord ['u', 'l', 'l']; pure .null
  | some 't' => drop; restOfWord ['r', 'u', 'e']; pure (.bool true)
  | some 'f' => drop; restOfWord ['a', 'l', 's', 'e']; pure (.bool false)
  | some '-' => do
    drop
    let n ← number true
    pure (.number n)
  | some '"' => do
    drop
    let s ← restOfString
    pure (.string s)
  | some '[' | some '{' => container
  | some c =>
    if LineMatch.Number.isDigit c then do
      let n ← number false
      pure (.number n)
    else failNext .expectedValue

/-- The content of an array or object; the cursor is at its bracket. -/
def containerOf (value : Read Value) : Read Value := do
  match ← next with
  | some '[' => do
    let vs ← fun c => elements value (c.rest.length + 1) true c
    closeList
    pure (.array vs)
  | _ => do
    let ms ← object [] fun ms name => do
      colon
      let v ← value
      pure ((name, v) :: ms)
    closeObject
    pure (.object ms.reverse)

/-- Any value. -/
def any : Nat → Read Value
  | 0 => scalarOr (failNext .tooDeep)
  | n + 1 => scalarOr (containerOf (any n))

/-! ## Skipped values -/

/-- Containers open around a skipped value, the innermost first. -/
inductive Bracket where
  | list | object
  deriving DecidableEq, Repr

/-- A member name and its colon, before a skipped value. -/
def skipKey : Read Unit := do
  match ← peekPastBlanks with
  | some '"' => drop
  | some _ => failNext .keyNotString
  | none => failNext .endInObject
  skipString
  colon

/-- What is met inside the innermost container: closing brackets are taken as they come.
    Gives the containers that are left, or none once the outermost is closed. -/
def closeBrackets : Nat → Bool → List Bracket → Read (List Bracket)
  | 0, _, _ => failNext .endInValue
  | _, _, [] => pure []
  | fuel + 1, mayComma, b :: bs => do
    match ← peekPastBlanks with
    | none => failNext (if b = .list then .endInList else .endInObject)
    | some c =>
      if c = ',' ∧ mayComma then do
        drop
        pure (b :: bs)
      else if (c = ']' ∧ b = .list) ∨ (c = '}' ∧ b = .object) then do
        drop
        closeBrackets fuel true bs
      else if mayComma then
        failNext (if b = .list then .expectedListCommaOrEnd else .expectedObjectCommaOrEnd)
      else pure (b :: bs)

/-- Skips one value inside the open containers, and then all that closes them. Each round
    takes a character, so the length of the text is fuel enough. -/
def skipFrom : Nat → List Bracket → Read Unit
  | 0, _ => failNext .endInValue
  | fuel + 1, bs => do
    let opened ← (do
      match ← peekPastBlanks with
      | none => failNext .endInValue
      | some 'n' => drop; restOfWord ['u', 'l', 'l']; pure none
      | some 't' => drop; restOfWord ['r', 'u', 'e']; pure none
      | some 'f' => drop; restOfWord ['a', 'l', 's', 'e']; pure none
      | some '-' => drop; skipNumber; pure none
      | some '"' => drop; skipString; pure none
      | some '[' => drop; pure (some Bracket.list)
      | some '{' => drop; pure (some Bracket.object)
      | some c => if LineMatch.Number.isDigit c then do skipNumber; pure none else failNext .expectedValue)
    let inside := match opened with
      | some b => b :: bs
      | none => bs
    match ← closeBrackets (fuel + 1) opened.isNone inside with
    | [] => pure ()
    | b :: bs => do
      if b = .object then skipKey
      skipFrom fuel (b :: bs)

/-- Skips a value of any shape. -/
def skip : Read Unit := fun c => skipFrom (c.rest.length + 1) [] c

/-- Skips the colon and the value of a member nobody asked for. -/
def skipMember : Read Unit := do
  colon
  skip

/-! ## Whole texts -/

/-- How many containers may stand inside one another. -/
def maxLevels : Nat := 127

/-- A text that holds one value and blanks. -/
def whole {α : Type} (value : Nat → Read α) (text : String) : Except Fault α :=
  (do
    let a ← value maxLevels
    match ← peekPastBlanks with
    | none => pure a
    | some _ => failNext .trailingCharacters : Read α).run' (Cursor.ofText text)

end Read

/-- The value a text holds. -/
def Value.ofText (text : String) : Except Fault Value := Read.whole Read.any text

end LineMatch.Json
