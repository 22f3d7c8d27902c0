/-
  LineMatch.Script.Field — what the words of a script stand for.

  A dollar sign with a name stands for a value; outside quotes the value is split at
  blanks and vanishes when it is empty. A word becomes glyphs first (`glyphs`), which
  remember what was quoted, and then the fields between gaps (`fields`). As a pattern
  (`globs`) an unquoted star stands for any text, a question mark for any character and
  brackets for one of a set.
-/

import LineMatch.Number.Integer
import LineMatch.Script.Symbol

namespace LineMatch.Script

/-- A part of what a word stands for. -/
inductive Glyph where
  /-- A character that was not quoted. -/
  | bare (c : Char)
  | quoted (c : Char)
  /-- A field, even if it is empty. -/
  | presence
  /-- A place between fields. -/
  | gap
  deriving DecidableEq, Repr, Inhabited

/-! ## References -/

/-- Where reading stands with respect to references. -/
inductive Pending where
  | none
  /-- After a dollar sign. -/
  | dollar (inDouble : Bool)
  /-- In a name, whose characters come in reverse. -/
  | name (inDouble : Bool) (name : List Char)
  deriving DecidableEq, Repr

def isNameStart (c : Char) : Bool := ('a' ≤ c && c ≤ 'z') || ('A' ≤ c && c ≤ 'Z') || c == '_'

def isNameChar (c : Char) : Bool := isNameStart c || Number.isDigit c

/-- The names of one character that are no letters. -/
def isSpecialName (c : Char) : Bool := ['?', '$', '#', '!', '@', '*', '-'].contains c || Number.isDigit c

def isSplitBlank (c : Char) : Bool := c == ' ' || c == '\t' || c == '\n'

/-- A value in the place of a reference. -/
def valueGlyphs (inDouble : Bool) (value : String) : List Glyph :=
  if inDouble then value.toList.map .quoted
  else value.toList.map fun c => if isSplitBlank c then .gap else .bare c

/-- The character of a mark written the same way as the dollar sign. -/
def Mark.after? (inDouble : Bool) : Mark → Option Char
  | bare c => if inDouble then none else some c
  | double c => if inDouble then some c else none
  | literal _ | opening => none

section

variable (value : String → String)

/-- What reading ends with when a reference is cut off. -/
def Pending.glyphs : Pending → List Glyph
  | none => []
  | dollar inDouble => [if inDouble then .quoted '$' else .bare '$']
  | name inDouble cs => valueGlyphs inDouble (value (String.ofList cs.reverse))

/-- What a mark adds that belongs to no reference, and what it begins. -/
def Mark.start : Mark → List Glyph × Pending
  | bare c => if c = '$' then ([], .dollar false) else ([.bare c], .none)
  | double c => if c = '$' then ([], .dollar true) else ([.quoted c], .none)
  | literal c => ([.quoted c], .none)
  | opening => ([.presence], .none)

/-- What a mark adds, and what is pending after it. -/
def Pending.step (p : Pending) (m : Mark) : List Glyph × Pending :=
  let cut := (p.glyphs value ++ m.start.1, m.start.2)
  match p with
  | none => m.start
  | dollar inDouble =>
    match m.after? inDouble with
    | some c =>
      if isNameStart c then ([], .name inDouble [c])
      else if isSpecialName c then (valueGlyphs inDouble (value c.toString), .none)
      else cut
    | Option.none => cut
  | name inDouble cs =>
    match m.after? inDouble with
    | some c => if isNameChar c then ([], .name inDouble (c :: cs)) else cut
    | Option.none => cut

def glyphsFrom (p : Pending) : Word → List Glyph
  | [] => p.glyphs value
  | m :: ms => (p.step value m).1 ++ glyphsFrom (p.step value m).2 ms

/-- Puts the home directory in the place of a tilde that begins a word. -/
def expandTilde : Word → Word
  | .bare '~' :: ms =>
    let isHome := match ms with
      | [] => true
      | m :: _ => m == .bare '/'
    let home := value "HOME"
    if isHome && !home.isEmpty then home.toList.map Mark.literal ++ ms else .bare '~' :: ms
  | ms => ms

def glyphs (w : Word) : List Glyph := glyphsFrom value .none (expandTilde value w)

end

/-! ## Fields -/

def Glyph.chars : Glyph → List Char
  | bare c | quoted c => [c]
  | presence | gap => []

/-- The glyphs up to the first gap and the stretches after it. -/
def splitGaps : List Glyph → List Glyph × List (List Glyph)
  | [] => ([], [])
  | g :: gs =>
    let (field, rest) := splitGaps gs
    if g = .gap then ([], field :: rest) else (g :: field, rest)

def glyphText (gs : List Glyph) : String := String.ofList (gs.flatMap Glyph.chars)

def fields (value : String → String) (w : Word) : List String :=
  let (field, rest) := splitGaps (glyphs value w)
  ((field :: rest).filter (!·.isEmpty)).map glyphText

/-- A word where it is not split, as in an assignment. -/
def wholeText (value : String → String) (w : Word) : String :=
  String.ofList ((glyphs value w).flatMap fun g => if g = .gap then [' '] else g.chars)

/-! ## Patterns -/

inductive Glob where
  | any
  | one
  | char (c : Char)
  | set (isNegated : Bool) (ranges : List (Char × Char))
  deriving DecidableEq, Repr, Inhabited

/-- The ranges of a set; a character alone is a range of its own. -/
def rangesOf : List Char → List (Char × Char)
  | a :: '-' :: b :: cs => (a, b) :: rangesOf cs
  | a :: cs => (a, a) :: rangesOf cs
  | [] => []

/-- The characters up to the bracket that closes a set, and what follows it. -/
def splitSet (isFirst : Bool) : List Glyph → Option (List Char × List Glyph)
  | [] => none
  | .bare ']' :: gs =>
    if isFirst then (splitSet false gs).map fun (cs, rest) => (']' :: cs, rest) else some ([], gs)
  | g :: gs => (splitSet false gs).map fun (cs, rest) => (g.chars ++ cs, rest)

/-- Reads at most `n` parts of a pattern. -/
def globsUpTo : Nat → List Glyph → List Glob
  | 0, _ => []
  | _ + 1, [] => []
  | n + 1, .bare '*' :: gs => .any :: globsUpTo n gs
  | n + 1, .bare '?' :: gs => .one :: globsUpTo n gs
  | n + 1, .bare '[' :: gs =>
    match gs with
    | .bare '!' :: gs' =>
      match splitSet true gs' with
      | some (cs, rest) => .set true (rangesOf cs) :: globsUpTo n rest
      | none => .char '[' :: globsUpTo n gs
    | gs =>
      match splitSet true gs with
      | some (cs, rest) => .set false (rangesOf cs) :: globsUpTo n rest
      | none => .char '[' :: globsUpTo n gs
  | n + 1, g :: gs => g.chars.map Glob.char ++ globsUpTo n gs

def globs (gs : List Glyph) : List Glob := globsUpTo gs.length gs

def Glob.admits (g : Glob) (c : Char) : Bool :=
  match g with
  | any | one => true
  | char d => c == d
  | set isNegated ranges => (ranges.any fun (a, b) => a ≤ c && c ≤ b) != isNegated

/-- Whether a pattern matches the whole of a text: a star takes nothing or one character more. -/
def matchesGlobs : List Glob → List Char → Bool
  | [], cs => cs.isEmpty
  | .any :: gs, [] => matchesGlobs gs []
  | .any :: gs, c :: cs => matchesGlobs gs (c :: cs) || matchesGlobs (.any :: gs) cs
  | _ :: _, [] => false
  | g :: gs, c :: cs => g.admits c && matchesGlobs gs cs
termination_by gs cs => gs.length + cs.length

end LineMatch.Script
