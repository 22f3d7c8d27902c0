/-
  LineMatch.Proofs.Script.Literal — values in a script are read as text.

  Reading is taken character by character, from one state of quoting to the next
  (`Quoting.after`), with what it leaves of them (`Quoting.reads`). A value written for a
  shell, met outside quotes, leaves reading outside quotes again and is read as the value,
  with nothing in it that a shell would act on (`IsLiteral`).

  Proved:
  - `isLiteral_shell`: every value is written so, whatever its characters.
  - `after_put`, `active_put`: in the place of references outside quotes, such texts change
    neither where reading stands after them nor what a shell acts on.
  - `values_are_literal_text`: so no value turns into code, in any script and any scope.
-/

import LineMatch.Proofs.Session.Reference
import LineMatch.Script.Quoting

namespace LineMatch.Script

/-! ## Reading a stretch of text -/

/-- The character that a mark stands for. -/
def Mark.char? : Mark → Option Char
  | bare c | double c | literal c => some c
  | opening => none

/-- Whether a shell acts on a character outside quotes. -/
def isActive (c : Char) : Bool :=
  Text.isBlank c ||
    ['|', '&', ';', '<', '>', '(', ')', '$', '`', '\\', '"', '\'', '*', '?', '[', '#', '!'].contains c

/-- The character of a mark that a shell acts on. -/
def Mark.active? : Mark → Option Char
  | bare c => if isActive c then some c else none
  | double _ | literal _ | opening => none

namespace Quoting

/-- Where reading stands after some characters. -/
def after (q : Quoting) (cs : List Char) : Quoting := cs.foldl next q

/-- What is left of some characters. -/
def reads : Quoting → List Char → List Mark
  | _, [] => []
  | q, c :: cs => q.yield c ++ reads (q.next c) cs

variable {q : Quoting} {c : Char} {as bs : List Char}

@[simp] theorem after_nil : q.after [] = q := rfl

@[simp] theorem after_cons : q.after (c :: as) = (q.next c).after as := rfl

theorem after_append : q.after (as ++ bs) = (q.after as).after bs := List.foldl_append

theorem reads_append : q.reads (as ++ bs) = q.reads as ++ (q.after as).reads bs := by
  induction as generalizing q with
  | nil => rfl
  | cons c as ih => rw [List.cons_append, reads, ih, reads, List.append_assoc, after_cons]

end Quoting

/-! ## Literal text -/

/-- Outside quotes `cs` is read as `value`, with nothing in it that a shell acts on, and
    reading is outside quotes again after it. -/
structure IsLiteral (cs value : List Char) : Prop where
  ends_bare : Quoting.bare.after cs = .bare
  reads : (Quoting.bare.reads cs).filterMap Mark.char? = value
  inert : ∀ c, .bare c ∈ Quoting.bare.reads cs → isActive c = false

namespace IsLiteral

variable {as bs us vs : List Char}

theorem nil : IsLiteral [] [] := ⟨rfl, rfl, fun _ h => by cases h⟩

theorem append (ha : IsLiteral as us) (hb : IsLiteral bs vs) : IsLiteral (as ++ bs) (us ++ vs) where
  ends_bare := by rw [Quoting.after_append, ha.ends_bare, hb.ends_bare]
  reads := by rw [Quoting.reads_append, ha.ends_bare, List.filterMap_append, ha.reads, hb.reads]
  inert := by
    intro c hc
    rw [Quoting.reads_append, ha.ends_bare, List.mem_append] at hc
    rcases hc with hc | hc
    · exact ha.inert c hc
    · exact hb.inert c hc

theorem active_eq_nil (h : IsLiteral as us) : (Quoting.bare.reads as).filterMap Mark.active? = [] := by
  refine List.filterMap_eq_nil_iff.2 fun m hm => ?_
  cases m with
  | bare c => simp [Mark.active?, h.inert c hm]
  | double c | literal c | opening => rfl

end IsLiteral

/-! ## Values written for a shell -/

/-- What reading leaves of a character written for a shell. -/
def charMarks (c : Char) : List Mark :=
  if c = '\n' then [.opening, .literal c] else if isActive c then [.literal c] else [.bare c]

/-- What reading leaves of a value written for a shell. -/
def valueMarks (value : List Char) : List Mark := value.flatMap charMarks

variable {c d : Char} {m : Mark} {value : List Char}

theorem isActive_eq : isActive c = (Text.isBlank c || Escape.shellSpecial.contains c) := by
  simp only [isActive, Escape.shellSpecial]
  rcases Text.isBlank c
  · simp
    grind
  · rfl

theorem shellChar_eq : Escape.shellChar c =
    if c = '\n' then ['\'', '\n', '\''] else if isActive c then ['\\', c] else [c] := by
  rw [Escape.shellChar, ← isActive_eq]

/-- A character that no shell acts on is no quote either. -/
theorem not_quote_of_inert (h : isActive c = false) : c ≠ '\\' ∧ c ≠ '\'' ∧ c ≠ '"' := by
  refine ⟨?_, ?_, ?_⟩ <;> rintro rfl <;> exact absurd h (by decide)

theorem after_shellChar : Quoting.bare.after (Escape.shellChar c) = .bare := by
  rw [shellChar_eq]
  split
  · rfl
  split
  · rfl
  · next h => simp [Quoting.next, not_quote_of_inert (Bool.eq_false_iff.2 h)]

theorem reads_shellChar : Quoting.bare.reads (Escape.shellChar c) = charMarks c := by
  rw [shellChar_eq, charMarks]
  split
  · next h => subst h; rfl
  split
  · next hline _ => simp [Quoting.reads, Quoting.yield, Quoting.next, hline]
  · next h => simp [Quoting.reads, Quoting.yield, not_quote_of_inert (Bool.eq_false_iff.2 h)]

theorem mem_charMarks (h : m ∈ charMarks c) :
    m = .opening ∨ m = .literal c ∨ (m = .bare c ∧ isActive c = false) := by
  rw [charMarks] at h
  split at h
  · simp only [List.mem_cons, List.not_mem_nil, or_false] at h
    exact h.imp_right .inl
  split at h
  · exact .inr (.inl (List.mem_singleton.1 h))
  · next hc => exact .inr (.inr ⟨List.mem_singleton.1 h, Bool.eq_false_iff.2 hc⟩)

theorem isLiteral_shellChar : IsLiteral (Escape.shellChar c) [c] where
  ends_bare := after_shellChar
  reads := by
    rw [reads_shellChar, charMarks]
    split
    · rfl
    split <;> rfl
  inert := by
    intro d hd
    rw [reads_shellChar] at hd
    rcases mem_charMarks hd with h | h | ⟨h, hc⟩
    · cases h
    · cases h
    · cases h
      exact hc

/-- Every value is written as literal text. -/
theorem isLiteral_shell (value : List Char) : IsLiteral (Escape.shell.apply value) value := by
  induction value with
  | nil => exact .nil
  | cons c value ih => exact isLiteral_shellChar.append ih

/-! ## Values in the place of references -/

/-- Reading from `q` on, over all characters but the references, stands outside quotes at
    every reference. -/
def BareAtReferences : Quoting → List Piece → Prop
  | _, [] => True
  | q, .char c :: ps => BareAtReferences (q.next c) ps
  | q, .reference _ :: ps => q = .bare ∧ BareAtReferences q ps

/-- The characters of a text that belong to no reference. -/
def copied (ps : List Piece) : List Char := ps.filterMap Piece.char?

variable {q : Quoting} {ps before after : List Piece} {name : List Char} {value text : List Char → List Char}

theorem BareAtReferences.at_reference (h : BareAtReferences q (before ++ .reference name :: after)) :
    BareAtReferences q before ∧ q.after (copied before) = .bare := by
  induction before generalizing q with
  | nil => exact ⟨trivial, h.1⟩
  | cons p before ih =>
    cases p with
    | char c => exact ih h
    | reference n => exact ⟨⟨h.1, (ih h.2).1⟩, (ih h.2).2⟩

theorem after_put (hv : ∀ name, IsLiteral (value name) (text name)) (h : BareAtReferences q ps) :
    q.after (ps.flatMap (Piece.put value)) = q.after (copied ps) := by
  induction ps generalizing q with
  | nil => rfl
  | cons p ps ih =>
    rw [List.flatMap_cons, Quoting.after_append]
    cases p with
    | char c => exact ih h
    | reference name =>
      obtain ⟨rfl, h⟩ := h
      rw [Piece.put, (hv name).ends_bare]
      exact ih h

theorem active_put (hv : ∀ name, IsLiteral (value name) (text name)) (h : BareAtReferences q ps) :
    (q.reads (ps.flatMap (Piece.put value))).filterMap Mark.active? =
      (q.reads (copied ps)).filterMap Mark.active? := by
  induction ps generalizing q with
  | nil => rfl
  | cons p ps ih =>
    rw [List.flatMap_cons, Quoting.reads_append, List.filterMap_append]
    cases p with
    | char c =>
      have hcopied : copied (.char c :: ps) = c :: copied ps := rfl
      rw [hcopied, Quoting.reads, List.filterMap_append, Piece.put, Quoting.reads, Quoting.reads, List.append_nil]
      exact congrArg _ (ih h)
    | reference name =>
      obtain ⟨rfl, h⟩ := h
      rw [Piece.put, (hv name).active_eq_nil, (hv name).ends_bare]
      exact ih h

theorem isLiteral_substitute (s : Scope) (name : List Char) :
    IsLiteral (s.substitute .shell name) ((s.value? (String.ofList name)).getD "").toList :=
  isLiteral_shell _

/-- Where a script refers to values outside quotes, each value is read as literal text
    there, and a shell acts on the characters of the script and no others. -/
theorem values_are_literal_text (s : Scope) (script : String)
    (h : BareAtReferences .bare (pieces script.toList)) :
    (∀ before name after, pieces script.toList = before ++ .reference name :: after →
      (expand s .shell script).toList = before.flatMap (Piece.put (s.substitute .shell)) ++
        (s.substitute .shell name ++ after.flatMap (Piece.put (s.substitute .shell))) ∧
      Quoting.bare.after (before.flatMap (Piece.put (s.substitute .shell))) = .bare ∧
      IsLiteral (s.substitute .shell name) ((s.value? (String.ofList name)).getD "").toList) ∧
    (Quoting.bare.reads (expand s .shell script).toList).filterMap Mark.active? =
      (Quoting.bare.reads (copied (pieces script.toList))).filterMap Mark.active? := by
  rw [toList_expand]
  refine ⟨fun before name after hps => ?_, active_put (isLiteral_substitute s) h⟩
  rw [hps] at h ⊢
  obtain ⟨hbefore, hbare⟩ := h.at_reference
  refine ⟨?_, ?_, isLiteral_substitute s name⟩
  · rw [List.flatMap_append, List.flatMap_cons]
    rfl
  · rw [after_put (isLiteral_substitute s) hbefore, hbare]

namespace Sample

/-- Values with what ends commands, quotes and names. -/
def hostile : Scope :=
  { session := { grammar := default, vars := [("a", "x;\n'rm' *"), ("b", "$(b) \"")] } }

/-- References beside quotes and a mark that begins comments. -/
def script : String := "echo \"a b\" ${a}#${b} '$' | cat"

theorem pieces_script : pieces script.toList =
    "echo \"a b\" ".toList.map .char ++ .reference ['a'] :: .char '#' :: .reference ['b'] ::
      " '$' | cat".toList.map .char := by
  simp [script, pieces, splitAtBrace]

end Sample

open Script.Sample in
theorem hostile_values_are_text :
    BareAtReferences .bare (pieces script.toList) ∧
      (Quoting.bare.reads (expand hostile .shell script).toList).filterMap Mark.active? =
        [' ', ' ', '#', ' ', ' ', '|', ' '] := by
  have h : BareAtReferences .bare (pieces script.toList) := by
    rw [pieces_script]
    exact ⟨rfl, rfl, trivial⟩
  refine ⟨h, (values_are_literal_text hostile script h).2.trans ?_⟩
  rw [pieces_script]
  decide

end LineMatch.Script
