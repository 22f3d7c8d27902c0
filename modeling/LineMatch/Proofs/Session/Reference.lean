/-
  LineMatch.Proofs.Session.Reference — a text as characters and references.

  `pieces` cuts a text into the characters that expansion copies and the references that
  it puts values in place of. Expansion goes from piece to piece (`expandWith_eq`), so it
  reads the values of the names a text refers to and of no others.

  Proved:
  - `expandWith_eq`: expansion is what each piece is written as, one after the other.
  - `expandWith_congr`: it hangs on the values of the names referred to alone.
  - `holds_congr`: and so does a test.
-/

import LineMatch.Proofs.Store
import LineMatch.Session.Condition

namespace LineMatch

/-- A part of a text: a character that is copied, or a reference. -/
inductive Piece where
  | char (c : Char)
  | reference (name : List Char)
  deriving DecidableEq, Repr

namespace Piece

/-- What a piece is written as, given the values of names. -/
def put (value : List Char → List Char) : Piece → List Char
  | char c => [c]
  | reference name => value name

def char? : Piece → Option Char
  | char c => some c
  | reference _ => none

def name? : Piece → Option (List Char)
  | char _ => none
  | reference name => some name

end Piece

def pieces : List Char → List Piece
  | [] => []
  | '$' :: '{' :: cs =>
    match _h : splitAtBrace cs with
    | some (name, rest) => .reference name :: pieces rest
    | none => ('$' :: '{' :: cs).map .char
  | c :: cs => .char c :: pieces cs
termination_by cs => cs.length
decreasing_by
  · have := splitAtBrace_length _h
    simp
    omega
  · simp

/-- The names that a text refers to. -/
def references (text : String) : List String := ((pieces text.toList).filterMap Piece.name?).map String.ofList

variable {value value' : List Char → List Char}

theorem flatMap_put_char (value : List Char → List Char) (cs : List Char) :
    (cs.map Piece.char).flatMap (Piece.put value) = cs := by
  induction cs with
  | nil => rfl
  | cons c cs ih => rw [List.map_cons, List.flatMap_cons, ih]; rfl

/-- Expansion goes from piece to piece. -/
theorem expandWith_eq (value : List Char → List Char) (cs : List Char) :
    expandWith value cs = (pieces cs).flatMap (Piece.put value) := by
  fun_induction expandWith value cs with
  | case1 => simp [pieces]
  | case2 cs name rest h ih =>
    rw [pieces, ih]
    split
    · next hs =>
      rw [h] at hs
      cases hs
      rfl
    · next hs =>
      rw [h] at hs
      cases hs
  | case3 cs h =>
    rw [pieces]
    split
    · next hs =>
      rw [h] at hs
      cases hs
    · exact (flatMap_put_char value _).symm
  | case4 c cs h ih =>
    rw [pieces, ih]
    · rfl
    · exact h

theorem toList_expand (s : Scope) (e : Escape) (text : String) :
    (expand s e text).toList = (pieces text.toList).flatMap (Piece.put (s.substitute e)) := by
  rw [expand, String.toList_ofList, expandWith_eq]

theorem expandWith_congr {cs : List Char} (h : ∀ name, .reference name ∈ pieces cs → value name = value' name) :
    expandWith value cs = expandWith value' cs := by
  rw [expandWith_eq, expandWith_eq, List.flatMap_def, List.flatMap_def]
  refine congrArg List.flatten (List.map_congr_left fun p hp => ?_)
  cases p with
  | char c => rfl
  | reference name => exact h name hp

theorem expand_congr {s t : Scope} {e : Escape} {text : String}
    (h : ∀ name ∈ references text, s.value? name = t.value? name) : expand s e text = expand t e text := by
  unfold expand
  refine congrArg String.ofList (expandWith_congr fun name hname => ?_)
  have hmem : String.ofList name ∈ references text :=
    List.mem_map_of_mem (List.mem_filterMap.2 ⟨_, hname, rfl⟩)
  rw [Scope.substitute, Scope.substitute, h _ hmem]

/-- A test hangs on the values of the names it refers to alone. -/
theorem Condition.holds_congr {s t : Scope} {test : String}
    (h : ∀ name ∈ references test, s.value? name = t.value? name) : holds s test = holds t test := by
  rw [holds, holds, expand_congr h]

/-- Inserts of other names change nothing for a parameter's test. -/
theorem Condition.applies_insertAll {s : Scope} {store : Store} {xs : List (Param × String)} {p : Param}
    (h : ∀ x ∈ xs, ∀ test, p.test = some test → x.1.name ∉ references test) :
    applies s (store.insertAll xs) p = applies s store p := by
  rcases ht : p.test with _ | test
  · simp only [applies, ht, Option.all_none]
  simp only [applies, ht, Option.all_some]
  refine holds_congr fun name hname => ?_
  have hstore : (store.insertAll xs).value? name = store.value? name := by
    refine Store.value?_insertAll_of_ne fun x hx he => ?_
    exact h x hx test ht (he ▸ hname)
  simp only [Scope.value?, Scope.withStore, Option.bind_some, hstore]

end LineMatch
