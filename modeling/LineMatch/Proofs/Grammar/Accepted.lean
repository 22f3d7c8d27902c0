/-
  LineMatch.Proofs.Grammar.Accepted — what types accept, and as what.

  A type judges the preprocessed text, and the value is this text. So a value that a type
  of integers accepts denotes an integer and is written as it was: with its sign, and
  with the zeros in front of its digits. And a value that is typed again is preprocessed
  already, so it is judged as it was.

  Proved:
  - `accept?_eq_some_iff`: a type accepts a text as the preprocessed text or not at all.
  - `accepted_again`: what a type accepts a text as, it accepts as itself.
  - `integers_accepted`: of the texts that denote integers, types accept just those whose
    integers have 64 bits and lie within the bounds.
-/

import LineMatch.Grammar.Accept
import LineMatch.Proofs.Number.Decimal
import LineMatch.Proofs.Text.Case

namespace LineMatch

open LineMatch.Number (Denotes IsDigits IsSigned IsUnsigned value signed?_eq_some_iff unsigned?_eq_some_iff)

/-- A number lies between bounds, as far as they are given. -/
def IsWithin {α : Type} [LE α] (min max : Option α) (n : α) : Prop :=
  (∀ lo ∈ min, lo ≤ n) ∧ ∀ hi ∈ max, n ≤ hi

theorem within_iff {α : Type} [LE α] [DecidableLE α] {min max : Option α} {n : α} :
    within min max n = true ↔ IsWithin min max n := by
  unfold within IsWithin
  rw [Bool.and_eq_true, Option.all_eq_true, Option.all_eq_true]
  simp

variable {t : ValueType} {text v : String} {engine : Pattern.Engine}

/-- A type accepts a text as what preprocessing makes of it, or not at all. -/
theorem ValueType.accept?_eq_some_iff :
    t.accept? text engine = some v ↔ v = t.preprocess.apply text ∧ t.method.admits v engine = true := by
  unfold accept?
  by_cases h : t.method.admits (t.preprocess.apply text) engine = true
  · rw [if_pos h, Option.some_inj]
    constructor
    · intro he
      exact ⟨he.symm, he ▸ h⟩
    · intro hv
      exact hv.1.symm
  · rw [if_neg h]
    constructor
    · intro he
      cases he
    · intro hv
      exact absurd (hv.1 ▸ hv.2) h

theorem Preprocess.apply_apply (pre : Preprocess) (text : String) : pre.apply (pre.apply text) = pre.apply text := by
  cases pre with
  | none => rfl
  | toUpper => exact Text.toUpper_toUpper text
  | toLower => exact Text.toLower_toLower text

/-- The value that a text stands for stands for itself, with any preprocessing. -/
theorem accepted_again (t : ValueType) (text v : String) (h : t.accept? text = some v) : t.accept? v = some v := by
  obtain ⟨rfl, hadmits⟩ := ValueType.accept?_eq_some_iff.1 h
  exact ValueType.accept?_eq_some_iff.2 ⟨(t.preprocess.apply_apply text).symm, hadmits⟩

namespace Sample

/-- A type that knows two labels, in small letters. -/
def label : ValueType := { name := "LABEL", method := .select ["xσy", "xς"], preprocess := .toLower }

end Sample

open Sample in
/-- The capital sigma at the end of a word becomes the final form, which stays when the
    value is typed again. -/
theorem label_again : label.accept? "XΣ" = some "xς" ∧ label.accept? "xς" = some "xς" := by
  have haccepted : label.accept? "XΣ" = some "xς" := by
    decide +kernel
  exact ⟨haccepted, accepted_again label _ _ haccepted⟩

/-! ## Integers -/

theorem admits_integer_iff {min max : Option Int} :
    (Method.integer min max).admits v = true ↔ ∃ i, Denotes v.toList i ∧ IsSigned i ∧ IsWithin min max i := by
  unfold Method.admits
  rw [Option.any_eq_true]
  constructor
  · intro ⟨i, hread, hin⟩
    obtain ⟨hdenotes, hsigned⟩ := signed?_eq_some_iff.1 hread
    exact ⟨i, hdenotes, hsigned, within_iff.1 hin⟩
  · intro ⟨i, hdenotes, hsigned, hin⟩
    exact ⟨i, signed?_eq_some_iff.2 ⟨hdenotes, hsigned⟩, within_iff.2 hin⟩

theorem admits_unsignedInteger_iff {min max : Option Nat} :
    (Method.unsignedInteger min max).admits v = true ↔
      IsDigits v.toList ∧ IsUnsigned (value v.toList) ∧ IsWithin min max (value v.toList) := by
  unfold Method.admits
  rw [Bool.and_eq_true, Bool.not_eq_true', beq_eq_false_iff_ne]
  constructor
  · intro ⟨hplus, hany⟩
    obtain ⟨n, hread, hin⟩ := (Option.any_eq_true _ _).1 hany
    obtain ⟨hdigits, rfl, hunsigned⟩ := (unsigned?_eq_some_iff hplus).1 hread
    exact ⟨hdigits, hunsigned, within_iff.1 hin⟩
  · intro ⟨hdigits, hunsigned, hin⟩
    have hplus : v.toList.head? ≠ some '+' := by
      rcases hv : v.toList with _ | ⟨c, cs⟩
      · exact nofun
      · rw [hv] at hdigits
        intro he
        exact hdigits.head_ne rfl (Option.some.inj he)
    refine ⟨hplus, (Option.any_eq_true _ _).2 ⟨value v.toList, ?_, within_iff.2 hin⟩⟩
    exact (unsigned?_eq_some_iff hplus).2 ⟨hdigits, rfl, hunsigned⟩

/-- A type of integers accepts a text if what preprocessing makes of it denotes an integer of
    64 bits within the bounds, for unsigned ones by digits alone, and in no other case. The
    value is the preprocessed text as it stands, however long it is. -/
theorem integers_accepted (name : String) (help : Option String) (pre : Preprocess) (text v : String) :
    (∀ min max, ValueType.accept? ⟨name, help, .integer min max, pre⟩ text = some v ↔
      v = pre.apply text ∧ ∃ i, Denotes v.toList i ∧ IsSigned i ∧ IsWithin min max i) ∧
    ∀ min max, ValueType.accept? ⟨name, help, .unsignedInteger min max, pre⟩ text = some v ↔
      v = pre.apply text ∧ IsDigits v.toList ∧ IsUnsigned (value v.toList) ∧ IsWithin min max (value v.toList) := by
  constructor
  · intro min max
    rw [ValueType.accept?_eq_some_iff, admits_integer_iff]
  · intro min max
    rw [ValueType.accept?_eq_some_iff, admits_unsignedInteger_iff]

/-- A sign and thirty zeros stay in the value. -/
example : ValueType.accept? ⟨"VLAN", none, .integer (some 1) (some 4094), .none⟩ "+0000000000000000000000000000004094" =
    some "+0000000000000000000000000000004094" := by decide +kernel

end LineMatch
