/-
  LineMatch.Pattern.Parser — reading the text of a pattern.

  `parse?` gives the expression a text denotes, or nothing when the text is no pattern.
  Groups are kept on a stack: each level holds the finished alternatives and the items
  of the current one, and flags set inside a group end with it. Look-around and
  references to groups are no part of the syntax. Nesting is bounded. What the names of
  properties stand for is left to the `Engine`, and so is which patterns are too large.
-/

import LineMatch.Pattern.Syntax

namespace LineMatch.Pattern

open LineMatch.Text
open LineMatch.Number (isDigit digitValue)

/-- What patterns are compiled with. -/
structure Engine where
  /-- The class that the name of a property stands for. -/
  named? : List Char → Option Class
  /-- The class that a property with a value stands for. -/
  valued? : List Char → List Char → Option Class
  /-- Whether what a pattern is compiled to keeps within the limit of size. -/
  fits : List Char → Bool

/-! ## Flags -/

structure Flags where
  blind : Bool := false
  multiLine : Bool := false
  dotAll : Bool := false
  crlf : Bool := false
  isUnicode : Bool := true
  /-- Blanks and comments in the pattern mean nothing. -/
  verbose : Bool := false
  deriving Repr, DecidableEq

/-- Sets the flag a letter stands for; nothing when it stands for none. Greed is read and
    has no effect on whether there is a match. -/
def Flags.set? (f : Flags) (letter : Char) (value : Bool) : Option Flags :=
  match letter with
  | 'i' => some { f with blind := value }
  | 'm' => some { f with multiLine := value }
  | 's' => some { f with dotAll := value }
  | 'R' => some { f with crlf := value }
  | 'u' => some { f with isUnicode := value }
  | 'x' => some { f with verbose := value }
  | 'U' => some f
  | _ => none

/-- Flag letters up to the `:` or `)` after them, which stays. `seen` holds the letters
    and the hyphen met so far, `fresh` is false right after the hyphen. -/
def readFlags (f : Flags) (seen : List Char) (value fresh : Bool) :
    List Char → Option (Flags × List Char × List Char)
  | [] => none
  | c :: cs =>
    if c = ':' ∨ c = ')' then if fresh then some (f, seen, c :: cs) else none
    else if seen.contains c then none
    else if c = '-' then readFlags f (c :: seen) false false cs
    else do readFlags (← f.set? c value) (c :: seen) value true cs

/-! ## Blanks and comments in verbose patterns -/

def skipVerbose (inComment : Bool) : List Char → List Char
  | [] => []
  | c :: cs =>
    if inComment then skipVerbose (c != '\n') cs
    else if isBlank c then skipVerbose false cs
    else if c = '#' then skipVerbose true cs
    else c :: cs

/-- The text from the next character that counts. -/
def Flags.ahead (f : Flags) (cs : List Char) : List Char := if f.verbose then skipVerbose false cs else cs

/-! ## Escapes -/

/-- What one item outside of brackets, or one escape, stands for. -/
inductive Atom where
  | char (c : Char)
  /-- A character given by two hexadecimal digits, a byte where bytes are matched. -/
  | byte (c : Char)
  | one (c : Class)
  | place (p : Place)
  deriving Repr

def hexOf? (c : Char) : Option Nat :=
  if isDigit c then some (digitValue c)
  else if 'a' ≤ c ∧ c ≤ 'f' then some (c.toNat - 87)
  else if 'A' ≤ c ∧ c ≤ 'F' then some (c.toNat - 55)
  else none

/-- The character of a code point, which no surrogate is. -/
def scalar? (n : Nat) : Option Char := if h : n.isValidChar then some (Char.ofNatAux n h) else none

/-- Exactly `count` hexadecimal digits. -/
def hexFixed (f : Flags) : Nat → Nat → List Char → Option (Nat × List Char)
  | 0, n, cs => some (n, cs)
  | count + 1, n, cs =>
    match cs with
    | c :: rest => do hexFixed f count (n * 16 + (← hexOf? c)) (f.ahead rest)
    | [] => none

/-- Hexadecimal digits up to the closing brace. -/
def hexBraced (f : Flags) : Nat → Nat → Bool → List Char → Option (Nat × List Char)
  | 0, _, _, _ => none
  | fuel + 1, n, isEmpty, cs =>
    match cs with
    | '}' :: rest => if isEmpty then none else some (n, f.ahead rest)
    | c :: rest => do hexBraced f fuel (n * 16 + (← hexOf? c)) false (f.ahead rest)
    | [] => none

/-- A character by its number, after `x`, `u` or `U`. -/
def hexEscape (f : Flags) (digits : Nat) (cs : List Char) : Option (Atom × List Char) := do
  match f.ahead cs with
  | [] => none
  | '{' :: rest =>
    let (n, rest) ← hexBraced f (rest.length + 1) 0 true (f.ahead rest)
    pure (.char (← scalar? n), rest)
  | rest =>
    let (n, rest) ← hexFixed f digits 0 rest
    let c ← scalar? n
    pure (if digits = 2 then .byte c else .char c, rest)

/-- The text up to a closing brace, and what follows the brace. -/
def braced (f : Flags) : Nat → List Char → Option (List Char × List Char)
  | 0, _ => none
  | fuel + 1, cs =>
    match cs with
    | '}' :: rest => some ([], rest)
    | c :: rest => do
      let (name, after) ← braced f fuel (f.ahead rest)
      pure (c :: name, after)
    | [] => none

/-- Splits a text around the first occurrence of a separator. -/
def splitAtFirst (separator : List Char) : List Char → Option (List Char × List Char)
  | [] => none
  | c :: cs =>
    if separator.isPrefixOf (c :: cs) then some ([], (c :: cs).drop separator.length)
    else (splitAtFirst separator cs).map fun (a, b) => (c :: a, b)

variable (engine : Engine)

/-- A class of a named property. -/
def propertyClass? (name : List Char) : Option Class :=
  match splitAtFirst ['!', '='] name with
  | some (p, v) => (engine.valued? p v).map .negate
  | none =>
    match splitAtFirst [':'] name with
    | some (p, v) => engine.valued? p v
    | none =>
      match splitAtFirst ['='] name with
      | some (p, v) => engine.valued? p v
      | none => engine.named? name

/-- A class closed under case, if the flags say so. -/
def Flags.fold (f : Flags) (c : Class) : Class :=
  if f.blind then (if f.isUnicode then .blind c else .asciiBlind c) else c

/-- A class with the flags applied: closed under case, then complemented. A class of
    bytes may hold ASCII characters only. -/
def Flags.finish? (f : Flags) (c : Class) (negated : Bool) : Option Class :=
  let c := if negated then .negate (f.fold c) else f.fold c
  if f.isUnicode then some c
  else if (List.range 128).any fun n => c.has (Char.ofNat (128 + n)) then none
  else some c

/-- The name of a property: one character, or more in braces. -/
def propertyName? (f : Flags) (cs : List Char) : Option (List Char × List Char) :=
  match f.ahead cs with
  | [] => none
  | '{' :: rest => braced f (rest.length + 1) (f.ahead rest)
  | c :: rest => if c = '\\' then none else some ([c], f.ahead rest)

/-- A property by its name, after `p` or `P`. -/
def propertyEscape (f : Flags) (negated : Bool) (cs : List Char) : Option (Atom × List Char) := do
  let (name, rest) ← propertyName? f cs
  let c ← propertyClass? engine name
  if !f.isUnicode then none
  else pure (.one (← f.finish? c negated), rest)

def isMeta (c : Char) : Bool :=
  ['\\', '.', '+', '*', '?', '(', ')', '|', '[', ']', '{', '}', '^', '$', '#', '&', '-', '~'].contains c

/-- Whether a backslash before `c` stands for `c`: ASCII characters but letters, digits
    and angle brackets. -/
def isEscapable (c : Char) : Bool :=
  isMeta c || (c.toNat < 0x80 && !c.isAlphanum && c != '<' && c != '>')

/-- The classes of one letter. -/
def letterClass? (f : Flags) (c : Char) : Option (Class × Bool) :=
  let digit := if f.isUnicode then .property (.categories [.nd]) else asciiDigit
  let space := if f.isUnicode then .property .blank else asciiSpace
  let wordChar := if f.isUnicode then .word else asciiWord
  match c with
  | 'd' => some (digit, false) | 'D' => some (digit, true)
  | 's' => some (space, false) | 'S' => some (space, true)
  | 'w' => some (wordChar, false) | 'W' => some (wordChar, true)
  | _ => none

def isEdgeNameChar (c : Char) : Bool := c.isAlpha || c == '-'

/-- The letters and hyphens from here on. -/
def edgeName (f : Flags) : Nat → List Char → List Char × List Char
  | 0, cs => ([], cs)
  | fuel + 1, cs =>
    match cs with
    | c :: rest =>
      if isEdgeNameChar c then
        let (name, after) := edgeName f fuel (f.ahead rest)
        (c :: name, after)
      else ([], cs)
    | [] => ([], [])

def edgePlace? (isUnicode : Bool) (name : List Char) : Option Place :=
  if name = "start".toList then some (.wordStart isUnicode)
  else if name = "end".toList then some (.wordEnd isUnicode)
  else if name = "start-half".toList then some (.wordStartHalf isUnicode)
  else if name = "end-half".toList then some (.wordEndHalf isUnicode)
  else none

/-- The edge of this name, before the brace that closes it. -/
def namedEdge? (isUnicode : Bool) (name : List Char) : List Char → Option (Atom × List Char)
  | '}' :: rest => do pure (.place (← edgePlace? isUnicode name), rest)
  | _ => none

/-- What follows `\b`: the name of an edge in braces, or a count, which is left. -/
def edgeEscape (f : Flags) (cs : List Char) : Option (Atom × List Char) :=
  let u := f.isUnicode
  match cs with
  | '{' :: rest =>
    match f.ahead rest with
    | [] => none
    | c :: more =>
      if isEdgeNameChar c then
        let (name, after) := edgeName f (rest.length + 1) (c :: more)
        namedEdge? u name after
      else some (.place (.wordEdge u), cs)
  | _ => some (.place (.wordEdge u), cs)

/-- What follows a backslash. -/
def escape (f : Flags) (cs : List Char) : Option (Atom × List Char) := do
  match cs with
  | [] => none
  | c :: rest =>
    match letterClass? f c with
    | some (k, negated) =>
      let k := if negated then .negate k else k
      if !f.isUnicode && negated then none else some (.one k, rest)
    | none =>
      if c = 'x' then hexEscape f 2 rest
      else if c = 'u' then hexEscape f 4 rest
      else if c = 'U' then hexEscape f 8 rest
      else if c = 'p' ∨ c = 'P' then propertyEscape engine f (c == 'P') rest
      else if isEscapable c then some (.char c, rest)
      else
        let u := f.isUnicode
        match c with
        | 'a' => some (.char '\x07', rest)
        | 'f' => some (.char '\x0c', rest)
        | 't' => some (.char '\t', rest)
        | 'n' => some (.char '\n', rest)
        | 'r' => some (.char '\r', rest)
        | 'v' => some (.char '\x0b', rest)
        | 'A' => some (.place .textStart, rest)
        | 'z' => some (.place .textEnd, rest)
        | 'b' => edgeEscape f rest
        | 'B' => some (.place (.notWordEdge u), rest)
        | '<' => some (.place (.wordStart u), rest)
        | '>' => some (.place (.wordEnd u), rest)
        | _ => none

/-! ## Bracketed classes -/

/-- The members read so far, how many items they are, and how deep the deepest nests. -/
structure Items where
  members : Class := .nothing
  count : Nat := 0
  depth : Nat := 0

def Items.add (s : Items) (c : Class) (depth : Nat) : Items :=
  ⟨.union s.members c, s.count + 1, max s.depth depth⟩

/-- How deep the items nest; several items are one level of their own. -/
def Items.nesting (s : Items) : Nat := if 1 < s.count then s.depth + 1 else s.depth

inductive SetOp where
  | inter | diff | oneOf
  deriving DecidableEq, Repr

def SetOp.apply : SetOp → Class → Class → Class
  | inter, a, b => .inter a b
  | diff, a, b => .diff a b
  | oneOf, a, b => .oneOf a b

def SetOp.marked? (mark : Char) : Option SetOp :=
  match mark with
  | '&' => some .inter
  | '-' => some .diff
  | '~' => some .oneOf
  | _ => none

/-- The left side of an operator between classes. -/
structure Pending where
  op : SetOp
  left : Class
  depth : Nat

/-- Applies the operator before the items, if there is one. -/
def combine (f : Flags) (pending : Option Pending) (s : Items) : Class × Nat :=
  match pending with
  | none => (s.members, s.nesting)
  | some p => (p.op.apply (f.fold p.left) (f.fold s.members), max p.depth s.nesting + 1)

/-- Whether a caret stands here, and what follows it. -/
def caret : List Char → Bool × List Char
  | '^' :: rest => (true, rest)
  | cs => (false, cs)

/-- The name before `:]`, and what follows. -/
def asciiName? (cs : List Char) : Option (List Char × List Char) :=
  let name := cs.takeWhile (· != ':')
  match cs.drop name.length with
  | ':' :: ']' :: after => some (name, after)
  | _ => none

/-- `[:name:]` or `[:^name:]`, from behind the bracket. -/
def asciiClass? (f : Flags) (cs : List Char) : Option (Class × List Char) :=
  match cs with
  | ':' :: rest => do
    let (negated, rest) := caret rest
    let (name, after) ← asciiName? rest
    let c ← asciiNamed? (String.ofList name)
    pure (if negated then .negate (f.fold c) else f.fold c, after)
  | _ => none

/-- A character as a bound or member of a class; classes of bytes hold bytes only. -/
def member? (f : Flags) : Atom → Option Char
  | .char c => if f.isUnicode || c.toNat < 0x80 then some c else none
  | .byte c => some c
  | _ => none

/-- One character or escape inside brackets. -/
def classAtom (f : Flags) (cs : List Char) : Option (Atom × List Char) :=
  match cs with
  | [] => none
  | '\\' :: rest => escape engine f rest
  | c :: rest => some (.char c, rest)

/-- The class an item alone stands for; places are none. -/
def atomClass? (f : Flags) (a : Atom) : Option Class :=
  match a with
  | .one c => some c
  | _ => (member? f a).map Class.one

/-- A range that begins with an item, from behind its hyphen. -/
def rangeTo? (f : Flags) (first : Atom) (cs : List Char) : Option (Class × List Char) := do
  let (last, rest) ← classAtom engine f cs
  let lo ← member? f first
  let hi ← member? f last
  if lo ≤ hi then some (.range lo hi, rest) else none

/-- What an item inside brackets begins: itself alone, or a range. -/
def rangeFrom? (f : Flags) (first : Atom) (cs : List Char) : Option (Class × List Char) :=
  match f.ahead cs with
  | [] => none
  | '-' :: rest =>
    match f.ahead rest with
    | [] => none
    | c :: more =>
      if c = ']' ∨ c = '-' then do pure (← atomClass? f first, '-' :: rest) else rangeTo? engine f first (c :: more)
  | c :: rest => do pure (← atomClass? f first, c :: rest)

/-- A character, a class or a range inside brackets. -/
def classRange (f : Flags) (cs : List Char) : Option (Class × List Char) := do
  let (first, rest) ← classAtom engine f cs
  rangeFrom? engine f first rest

/-- Hyphens at the head of a class, which are members. -/
def leadingHyphens (f : Flags) : Nat → Items → List Char → Items × List Char
  | 0, s, cs => (s, cs)
  | fuel + 1, s, cs =>
    match cs with
    | '-' :: rest => leadingHyphens f fuel (s.add (.one '-') 0) (f.ahead rest)
    | _ => (s, cs)

/-- Whether a class is complemented, and the text of its members. -/
def complement (f : Flags) (cs : List Char) : Bool × List Char :=
  match caret (f.ahead cs) with
  | (true, rest) => (true, f.ahead rest)
  | (false, rest) => (false, rest)

/-- A closing bracket before all members is one. -/
def leadingBracket? (f : Flags) (s : Items) (cs : List Char) : Option (Items × List Char) :=
  match cs with
  | [] => none
  | c :: rest =>
    if c = ']' ∧ s.count = 0 then
      match f.ahead rest with
      | [] => none
      | d :: more => some (s.add (.one ']') 0, d :: more)
    else some (s, c :: rest)

/-- The head of a class, from behind its bracket: whether it is complemented, and its
    first members where hyphens or a closing bracket stand as themselves. -/
def openClass (f : Flags) (cs : List Char) : Option (Bool × Items × List Char) := do
  let (negated, cs) := complement f cs
  let (s, cs) := leadingHyphens f (cs.length + 1) {} cs
  let (s, cs) ← leadingBracket? f s cs
  pure (negated, s, cs)

/-- An operator between classes, which is a mark twice. -/
def setOp? : List Char → Option (SetOp × List Char)
  | c :: d :: rest => if c = d then (SetOp.marked? c).map fun op => (op, rest) else none
  | _ => none

/-- The rest of a class, whose head is read: its members, its depth and what follows it. -/
def classBody (f : Flags) (negated : Bool) :
    Nat → Option Pending → Items → List Char → Option (Class × Nat × List Char)
  | 0, _, _, _ => none
  | fuel + 1, pending, s, cs =>
    match f.ahead cs with
    | [] => none
    | '[' :: rest =>
      match asciiClass? f rest with
      | some (c, after) => classBody f negated fuel pending (s.add c 0) after
      | none => do
        let (innerNegated, inner, after) ← openClass f rest
        let (c, depth, after) ← classBody f innerNegated fuel none inner after
        classBody f negated fuel pending (s.add c depth) after
    | ']' :: rest => do
      let (c, depth) := combine f pending s
      pure (← f.finish? c negated, depth + 1, rest)
    | d :: rest =>
      match setOp? (d :: rest) with
      | some (op, after) =>
        let (c, depth) := combine f pending s
        classBody f negated fuel (some ⟨op, c, depth⟩) {} after
      | none => do
        let (c, after) ← classRange engine f (d :: rest)
        classBody f negated fuel pending (s.add c 0) after

/-- A bracketed class, from behind its bracket. -/
def bracketed (f : Flags) (cs : List Char) : Option (Class × Nat × List Char) := do
  let (negated, s, rest) ← openClass f cs
  classBody engine f negated (2 * rest.length + 2) none s rest

/-! ## Repetitions -/

/-- Digits, between which blanks may stand in verbose patterns. -/
def digitsFrom (f : Flags) : Nat → List Char → List Char × List Char
  | 0, cs => ([], cs)
  | fuel + 1, cs =>
    match cs with
    | c :: rest =>
      if isDigit c then
        let (ds, after) := digitsFrom f fuel (f.ahead rest)
        (c :: ds, after)
      else ([], cs)
    | [] => ([], [])

def maxCount : Nat := 4294967295

/-- A number with blanks around it; nothing when there are no digits or too many. -/
def count (f : Flags) (cs : List Char) : Option Nat × List Char :=
  let cs := cs.dropWhile isBlank
  let (ds, rest) := digitsFrom f (cs.length + 1) cs
  ((LineMatch.Number.natOf? ds).filter (· ≤ maxCount), f.ahead (rest.dropWhile isBlank))

/-- The greatest count, behind the comma after the least. -/
def most? (f : Flags) (least : Option Nat) (cs : List Char) : Option ((Nat × Option Nat) × List Char) :=
  match f.ahead cs with
  | [] => none
  | c :: rest =>
    if c = '}' then do pure ((← least, none), c :: rest)
    else do
      let lo ← least
      let (most, rest) := count f (c :: rest)
      let hi ← most
      pure ((lo, some hi), rest)

/-- The least and the greatest count, before the brace. -/
def bounds? (f : Flags) (cs : List Char) : Option ((Nat × Option Nat) × List Char) :=
  match count f cs with
  | (least, ',' :: rest) => most? f least rest
  | (least, rest) => do
    let n ← least
    pure ((n, some n), rest)

/-- What follows the mark of a repetition, which a question mark makes reluctant. -/
def afterMark : List Char → List Char
  | '?' :: rest => rest
  | rest => rest

/-- The brace behind the bounds of a count, which are in order. -/
def closeCount? (f : Flags) (least : Nat) (most : Option Nat) : List Char → Option (Nat × Option Nat × List Char)
  | '}' :: rest => if most.all (least ≤ ·) then some (least, most, afterMark (f.ahead rest)) else none
  | _ => none

/-- A counted repetition, from behind its brace. -/
def counted (f : Flags) (cs : List Char) : Option (Nat × Option Nat × List Char) := do
  match f.ahead cs with
  | [] => none
  | c :: rest =>
    let ((least, most), rest) ← bounds? f (c :: rest)
    closeCount? f least most rest

/-! ## Patterns -/

/-- A piece of a pattern, how deep it nests, and whether it may be repeated. -/
structure Item where
  expr : Expr
  depth : Nat
  mayRepeat : Bool

/-- Consecutive items as one, the last given first. -/
def sequence (items : List Item) : Item :=
  match items with
  | [] => ⟨.empty, 0, false⟩
  | [i] => i
  | i :: rest =>
    ⟨rest.foldl (fun e j => .seq j.expr e) i.expr, (items.map Item.depth).foldl max 0 + 1, true⟩

/-- Alternatives as one, the last given first. -/
def choice (branches : List Item) : Item :=
  match branches with
  | [] => ⟨.empty, 0, false⟩
  | [b] => b
  | b :: rest =>
    ⟨rest.foldl (fun e c => .choice c.expr e) b.expr, (branches.map Item.depth).foldl max 0 + 1, true⟩

/-- What has been read of a group: finished alternatives and the items of the current one. -/
structure Level where
  branches : List Item := []
  items : List Item := []

def Level.closed (l : Level) : Item := choice (sequence l.items :: l.branches)

/-- A group begun: what surrounds it, the flags that hold again after it, and whether what
    it matches is kept. -/
structure Begun where
  outer : Level
  flags : Flags
  isKept : Bool

/-- The text that is left, the flags, the innermost group, those around it and the names given. -/
structure State where
  rest : List Char
  flags : Flags
  level : Level
  outer : List Begun
  names : List (List Char)

def State.push (s : State) (e : Expr) (depth : Nat) (rest : List Char) : State :=
  { s with rest := rest, level := { s.level with items := ⟨e, depth, true⟩ :: s.level.items } }

def State.open (s : State) (inner : Flags) (isKept : Bool) (rest : List Char) : State :=
  { s with rest := rest, flags := inner, level := {}, outer := ⟨s.level, s.flags, isKept⟩ :: s.outer }

/-- A character as an expression, closed under case if the flags say so. -/
def charExpr (f : Flags) (c : Char) : Expr := .one (f.fold (.one c))

def atomExpr? (f : Flags) : Atom → Option Expr
  | .char c => some (charExpr f c)
  | .byte c => if f.isUnicode || c.toNat < 0x80 then some (charExpr f c) else none
  | .one k => some (.one k)
  | .place p => some (.place p)

/-- Any character but the end of a line, or any at all. Bytes that are no text do not match. -/
def dot? (f : Flags) : Option Expr :=
  if !f.isUnicode then none
  else if f.dotAll then some (.one (.property .any))
  else if f.crlf then some (.one (.negate (.union (.one '\n') (.one '\r'))))
  else some (.one (.negate (.one '\n')))

def lineStart (f : Flags) : Place :=
  if !f.multiLine then .textStart else if f.crlf then .crlfStart else .lineStart

def lineEnd (f : Flags) : Place :=
  if !f.multiLine then .textEnd else if f.crlf then .crlfEnd else .lineEnd

def isNameStart (c : Char) : Bool := c == '_' || isAlphabetic c

def isNameChar (c : Char) : Bool :=
  c == '_' || c == '.' || c == '[' || c == ']' || isAlphabetic c || (category c).isNumber

def isGroupName : List Char → Bool
  | c :: cs => isNameStart c && cs.all isNameChar
  | [] => false

/-- The name of a group and what follows its angle bracket. -/
def groupName? (cs : List Char) : Option (List Char × List Char) :=
  let name := cs.takeWhile (· != '>')
  match cs.drop name.length with
  | '>' :: rest => if isGroupName name then some (name, rest) else none
  | _ => none

/-- Opens a named group. -/
def State.openNamed? (s : State) (cs : List Char) : Option State := do
  let (name, rest) ← groupName? cs
  if s.names.contains name then none
  else pure { s.open s.flags true rest with names := name :: s.names }

/-- What follows an opening parenthesis. -/
inductive Opening where
  | lookAround
  | named (rest : List Char)
  | flags (rest : List Char)
  | plain (rest : List Char)

/-- An angle bracket begins a name, or looks back. -/
def behindAngle (cs : List Char) : Opening :=
  if cs.head? = some '=' ∨ cs.head? = some '!' then .lookAround else .named cs

def opening : List Char → Opening
  | '?' :: c :: rest =>
    if c = '=' ∨ c = '!' then .lookAround
    else if c = '<' then behindAngle rest
    else if c = 'P' ∧ rest.head? = some '<' then .named rest.tail
    else .flags (c :: rest)
  | ['?'] => .flags []
  | rest => .plain rest

/-- Sets flags up to the parenthesis, or opens a group with them behind a colon. -/
def State.withFlags? (s : State) (inner : Flags) (seen : List Char) : List Char → Option State
  | ')' :: rest =>
    if seen.isEmpty then none
    else some { s with
      rest := rest, flags := inner, level := { s.level with items := ⟨.empty, 0, false⟩ :: s.level.items } }
  | ':' :: rest => some (s.open inner false rest)
  | _ => none

/-- Sets flags, for the group that they open or for the rest of the one they stand in. -/
def State.setFlags? (s : State) (cs : List Char) : Option State := do
  let (inner, seen, rest) ← readFlags s.flags [] true true cs
  s.withFlags? inner seen rest

/-- Opens a group or sets flags, from behind the parenthesis. -/
def State.openGroup? (s : State) (cs : List Char) : Option State :=
  match opening (s.flags.ahead cs) with
  | .lookAround => none
  | .named rest => s.openNamed? rest
  | .flags rest => s.setFlags? rest
  | .plain rest => some (s.open s.flags true rest)

/-- Closes the innermost group. -/
def State.closeGroup? (s : State) (rest : List Char) : Option State :=
  match s.outer with
  | [] => none
  | b :: outer =>
    let inner := s.level.closed
    let e := if b.isKept then .group inner.expr else inner.expr
    some { s with
      rest := rest, flags := b.flags, outer := outer,
      level := { b.outer with items := ⟨e, inner.depth + 1, true⟩ :: b.outer.items } }

/-- Repeats the last item. -/
def State.repeat? (s : State) (least : Nat) (most : Option Nat) (rest : List Char) : Option State :=
  match s.level.items with
  | [] => none
  | i :: items =>
    if i.mayRepeat then
      some { s with
        rest := rest,
        level := { s.level with items := ⟨.times i.expr least most, i.depth + 1, true⟩ :: items } }
    else none

/-- Reads one item; `c` stands before `cs`. -/
def State.step? (s : State) (c : Char) (cs : List Char) : Option State := do
  let f := s.flags
  match c with
  | '(' => s.openGroup? cs
  | ')' => s.closeGroup? cs
  | '|' => pure { s with rest := cs, level := ⟨sequence s.level.items :: s.level.branches, []⟩ }
  | '[' =>
    let (k, depth, rest) ← bracketed engine f cs
    pure (s.push (.one k) depth rest)
  | '?' => s.repeat? 0 (some 1) (afterMark cs)
  | '*' => s.repeat? 0 none (afterMark cs)
  | '+' => s.repeat? 1 none (afterMark cs)
  | '{' =>
    let (least, most, rest) ← counted f cs
    s.repeat? least most rest
  | '\\' =>
    let (a, rest) ← escape engine f cs
    pure (s.push (← atomExpr? f a) 0 rest)
  | '.' => pure (s.push (← dot? f) 0 cs)
  | '^' => pure (s.push (.place (lineStart f)) 0 cs)
  | '$' => pure (s.push (.place (lineEnd f)) 0 cs)
  | c => pure (s.push (charExpr f c) 0 cs)

/-- Reads all items. Each takes a character at least. -/
def State.run? : Nat → State → Option Item
  | 0, _ => none
  | fuel + 1, s =>
    match s.flags.ahead s.rest with
    | [] => if s.outer.isEmpty then some s.level.closed else none
    | c :: cs => do run? fuel (← s.step? engine c cs)

/-- What a text reads as, however deep it nests. -/
def read? (text : List Char) : Option Item := State.run? engine (text.length + 1) ⟨text, {}, {}, [], []⟩

def maxDepth : Nat := 250

/-- The expression a pattern denotes. -/
def parse? (text : List Char) : Option Expr := do
  let item ← read? engine text
  if item.depth ≤ maxDepth then pure item.expr else none

end LineMatch.Pattern
