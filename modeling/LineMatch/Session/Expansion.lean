/-
  LineMatch.Session.Expansion — references in texts.

  `$` with a name in braces stands for the value of the name. The name ends at the first
  closing brace; without one the reference is no reference and the text is kept. Text
  around references is kept as well, and values are put in as they are or escaped for a
  shell, and not looked into again.
-/

import LineMatch.Session.Scope
import LineMatch.Text.Blank

namespace LineMatch

/-- How values are written into a text. -/
inductive Escape where
  | raw
  /-- As literal text of a shell script. -/
  | shell
  deriving Repr, DecidableEq, Inhabited

namespace Escape

/-- The characters that mean something to a shell outside quotes. -/
def shellSpecial : List Char :=
  ['`', '|', '$', '<', '>', '&', '(', ')', '#', ';', '\\', '"', '!', '\'', '*', '?', '[']

/-- A backslash before a line feed would join two lines, so line feeds stand in quotes. -/
def shellChar (c : Char) : List Char :=
  if c = '\n' then ['\'', '\n', '\'']
  else if Text.isBlank c || shellSpecial.contains c then ['\\', c]
  else [c]

def apply (e : Escape) (value : List Char) : List Char :=
  match e with
  | raw => value
  | shell => value.flatMap shellChar

end Escape

/-! ## References -/

/-- The text up to the first closing brace and the text after the brace. -/
def splitAtBrace : List Char → Option (List Char × List Char)
  | [] => none
  | c :: cs =>
    if c = '}' then some ([], cs)
    else (splitAtBrace cs).map fun (name, rest) => (c :: name, rest)

theorem splitAtBrace_length {cs name rest : List Char} (h : splitAtBrace cs = some (name, rest)) :
    rest.length < cs.length := by
  induction cs generalizing name with
  | nil => simp [splitAtBrace] at h
  | cons c cs ih =>
    rw [splitAtBrace] at h
    split at h
    · cases h
      simp
    · obtain ⟨⟨n, r⟩, hr, he⟩ := Option.map_eq_some_iff.1 h
      cases he
      exact Nat.lt_succ_of_lt (ih hr)

/-- Puts `value name` in the place of each reference. -/
def expandWith (value : List Char → List Char) : List Char → List Char
  | [] => []
  | '$' :: '{' :: cs =>
    match _h : splitAtBrace cs with
    | some (name, rest) => value name ++ expandWith value rest
    | none => '$' :: '{' :: cs
  | c :: cs => c :: expandWith value cs
termination_by cs => cs.length
decreasing_by
  · have := splitAtBrace_length _h
    simp
    omega
  · simp

/-- The text a name stands for; nothing where the name has no value. -/
def Scope.substitute (s : Scope) (e : Escape) (name : List Char) : List Char :=
  e.apply ((s.value? (String.ofList name)).getD "").toList

def expand (s : Scope) (e : Escape) (text : String) : String :=
  String.ofList (expandWith (s.substitute e) text.toList)

end LineMatch
