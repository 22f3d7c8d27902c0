/-
  LineMatch.Proofs.Number.Decimal — the texts that denote integers.

  Digits denote a number by their places, the last of them counting ones (`value`); a text
  denotes an integer by digits alone or with one sign before them (`Denotes`). Neither
  has a bound.

  Proved:
  - `natFrom_eq_some_iff`: digits are read as what they denote behind those read before.
  - `integer?_eq_some_iff`: what is read of a text is the integer that it denotes.
  - `signed?_eq_some_iff`, `unsigned?_eq_some_iff`: and it is read where it has 64 bits.
-/

import Mathlib.Data.Nat.Digits.Defs
import LineMatch.Number.Integer

namespace LineMatch.Number

/-- One or more digits. -/
def IsDigits (cs : List Char) : Prop := cs ≠ [] ∧ ∀ c ∈ cs, isDigit c = true

/-- The number that digits denote. -/
def value (cs : List Char) : Nat := Nat.ofDigits 10 (cs.reverse.map digitValue)

/-- The integer that a text denotes, if it is digits with at most one sign before them. -/
inductive Denotes : List Char → Int → Prop
  | digits {cs : List Char} : IsDigits cs → Denotes cs (value cs)
  | plus {cs : List Char} : IsDigits cs → Denotes ('+' :: cs) (value cs)
  | minus {cs : List Char} : IsDigits cs → Denotes ('-' :: cs) (-value cs)

variable {c : Char} {cs : List Char} {acc n : Nat} {i : Int}

/-! ## Digits -/

@[simp] theorem value_nil : value [] = 0 := rfl

theorem value_cons : value (c :: cs) = digitValue c * 10 ^ cs.length + value cs := by
  unfold value
  rw [List.reverse_cons, List.map_append, Nat.ofDigits_append, List.map_singleton, Nat.ofDigits_singleton,
    List.length_map, List.length_reverse]
  ring

theorem natFrom_eq_some_iff : natFrom acc cs = some n ↔
    (∀ c ∈ cs, isDigit c = true) ∧ acc * 10 ^ cs.length + value cs = n := by
  induction cs generalizing acc with
  | nil => simp [natFrom]
  | cons c cs ih =>
    unfold natFrom
    by_cases hc : isDigit c = true
    · have hplace : (acc * 10 + digitValue c) * 10 ^ cs.length + value cs =
          acc * 10 ^ (c :: cs).length + value (c :: cs) := by
        rw [value_cons, List.length_cons]
        ring
      rw [if_pos hc, ih, hplace]
      simp [hc]
    · rw [if_neg hc]
      simp [hc]

theorem natOf?_eq_some_iff : natOf? cs = some n ↔ IsDigits cs ∧ value cs = n := by
  rcases cs with _ | ⟨c, cs⟩
  · simp [natOf?, IsDigits]
  · show natFrom 0 (c :: cs) = some n ↔ _
    rw [natFrom_eq_some_iff]
    simp [IsDigits]

/-! ## Signs -/

theorem IsDigits.head_ne {d : Char} (h : IsDigits (c :: cs)) (hd : isDigit d = false) : c ≠ d := by
  intro he
  have hc := h.2 c List.mem_cons_self
  rw [he, hd] at hc
  cases hc

theorem integer?_of_isDigits (h : IsDigits cs) : integer? cs = (natOf? cs).map Int.ofNat := by
  rcases cs with _ | ⟨c, cs⟩
  · exact absurd rfl h.1
  · unfold integer?
    split
    · next heq => exact absurd (List.cons.inj heq).1 (h.head_ne rfl)
    · next heq => exact absurd (List.cons.inj heq).1 (h.head_ne rfl)
    · rfl

/-- What is read of a text is the integer that it denotes. -/
theorem integer?_eq_some_iff : integer? cs = some i ↔ Denotes cs i := by
  constructor
  · intro h
    unfold integer? at h
    split at h
    all_goals
      obtain ⟨n, hn, rfl⟩ := Option.map_eq_some_iff.1 h
      obtain ⟨hdigits, rfl⟩ := natOf?_eq_some_iff.1 hn
    · exact .plus hdigits
    · exact .minus hdigits
    · exact .digits hdigits
  · intro h
    cases h with
    | digits hdigits =>
      rw [integer?_of_isDigits hdigits, natOf?_eq_some_iff.2 ⟨hdigits, rfl⟩]
      rfl
    | @plus cs hdigits =>
      show (natOf? cs).map Int.ofNat = _
      rw [natOf?_eq_some_iff.2 ⟨hdigits, rfl⟩]
      rfl
    | @minus cs hdigits =>
      show (natOf? cs).map (fun n => -Int.ofNat n) = _
      rw [natOf?_eq_some_iff.2 ⟨hdigits, rfl⟩]
      rfl

/-! ## Sixty-four bits -/

/-- An integer that has 64 bits with a sign. -/
def IsSigned (i : Int) : Prop := -2 ^ 63 ≤ i ∧ i ≤ 2 ^ 63 - 1

/-- A number that has 64 bits without a sign. -/
def IsUnsigned (n : Nat) : Prop := n ≤ 2 ^ 64 - 1

theorem signed?_eq_some_iff : signed? cs = some i ↔ Denotes cs i ∧ IsSigned i := by
  unfold signed?
  rw [Option.filter_eq_some_iff, integer?_eq_some_iff, Bool.and_eq_true, decide_eq_true_eq, decide_eq_true_eq]
  rfl

theorem unsigned?_eq_some_iff (h : cs.head? ≠ some '+') :
    unsigned? cs = some n ↔ IsDigits cs ∧ value cs = n ∧ IsUnsigned n := by
  have hdigits : unsigned? cs = (natOf? cs).filter (· ≤ maxUnsigned) := by
    unfold unsigned?
    split
    · next rest => exact absurd rfl h
    · rfl
  rw [hdigits, Option.filter_eq_some_iff, natOf?_eq_some_iff, and_assoc, decide_eq_true_eq]
  rfl

end LineMatch.Number
