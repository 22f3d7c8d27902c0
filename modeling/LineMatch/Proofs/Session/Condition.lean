/-
  LineMatch.Proofs.Session.Condition — tests and the number of their words.

  The usual rules for tests go by the number of words: with three words an operator in
  the middle compares the other two, whatever they are, and `!` negates only what is no
  comparison (`Meets`). Here `!` in front comes before everything else. So the two part
  where the first word of a comparison is `!`: it is read as the negation of a test of two
  words that holds of nothing, and always holds.

  Proved:
  - `compareIntegers_iff`, `holdsWords_compare`: a comparison, if its first word is not `!`.
  - `agrees_three_iff`, `agrees_not_iff`: where the two agree on three words, and that a
    negation of three or more keeps this.
  - `agrees_iff`: they part just at the comparisons of `!` that do not hold.
  - `compares_by_count`: where they agree, for all tests.
-/

import LineMatch.Proofs.Number.Decimal
import LineMatch.Session.Condition

namespace LineMatch.Condition

open LineMatch.Number (Denotes IsSigned signed?_eq_some_iff)

/-! ## What a test says -/

/-- The operators between two words: two for texts and six for integers. -/
inductive Operator where
  | same | differs
  | equal | unequal | greater | atLeast | less | atMost
  deriving DecidableEq, Repr

/-- Two words denote integers of 64 bits that are so related. -/
def Related (r : Int → Int → Prop) (a b : String) : Prop :=
  ∃ x y, (Denotes a.toList x ∧ IsSigned x) ∧ (Denotes b.toList y ∧ IsSigned y) ∧ r x y

namespace Operator

def word : Operator → String
  | same => "="
  | differs => "!="
  | equal => "-eq"
  | unequal => "-ne"
  | greater => "-gt"
  | atLeast => "-ge"
  | less => "-lt"
  | atMost => "-le"

/-- What an operator says of the words on its two sides. -/
def Holds : Operator → String → String → Prop
  | same, a, b => a = b
  | differs, a, b => a ≠ b
  | equal, a, b => Related (· = ·) a b
  | unequal, a, b => Related (· ≠ ·) a b
  | greater, a, b => Related (· > ·) a b
  | atLeast, a, b => Related (· ≥ ·) a b
  | less, a, b => Related (· < ·) a b
  | atMost, a, b => Related (· ≤ ·) a b

end Operator

/-- Tests as the number of their words decides. -/
def Meets : List String → Prop
  | [] => False
  | [s] => s ≠ ""
  | [u, s] => (u = "!" ∧ s = "") ∨ (u = "-n" ∧ s ≠ "") ∨ (u = "-z" ∧ s = "")
  | [a, op, b] =>
    (∃ o : Operator, op = o.word ∧ o.Holds a b) ∨ ((∀ o : Operator, op ≠ o.word) ∧ a = "!" ∧ ¬ Meets [op, b])
  | a :: ws => a = "!" ∧ ¬ Meets ws

/-- A test holds just if the number of its words decides so. -/
def Agrees (ws : List String) : Prop := holdsWords ws = true ↔ Meets ws

/-- A comparison of `!` with another word, negated any number of times, that does not hold. -/
def Misread (ws : List String) : Prop :=
  ∃ k b, ∃ o : Operator, ws = List.replicate k "!" ++ ["!", o.word, b] ∧ ¬ o.Holds "!" b

variable {a b op s u : String} {o : Operator} {ws : List String}

/-! ## Comparing -/

theorem Operator.word_injective : Function.Injective word := by
  intro o p h
  cases o <;> cases p <;> first | rfl | exact absurd h (by decide)

theorem related_iff {r : Int → Int → Prop} : Related r a b ↔
    ∃ x y, Number.signed? a.toList = some x ∧ Number.signed? b.toList = some y ∧ r x y := by
  unfold Related
  simp only [signed?_eq_some_iff]

theorem related_of_read {r : Int → Int → Prop} {x y : Int} (ha : Number.signed? a.toList = some x)
    (hb : Number.signed? b.toList = some y) : Related r a b ↔ r x y := by
  rw [related_iff, ha, hb]
  simp

/-- An operator for integers compares those that the two words denote. -/
theorem compareIntegers_iff (h : o ≠ .same ∧ o ≠ .differs) : compareIntegers a o.word b = true ↔ o.Holds a b := by
  cases o with
  | same => exact absurd rfl h.1
  | differs => exact absurd rfl h.2
  | equal | unequal | greater | atLeast | less | atMost =>
    unfold Operator.Holds
    rcases ha : Number.signed? a.toList with _ | x
    · simp [compareIntegers, ha, related_iff]
    rcases hb : Number.signed? b.toList with _ | y
    · simp [compareIntegers, ha, hb, related_iff]
    · simp [compareIntegers, Operator.word, ha, hb, related_of_read ha hb]

theorem compareIntegers_of_not_operator (h : ∀ o : Operator, op ≠ o.word) : compareIntegers a op b = false := by
  have heq := h .equal
  have hne := h .unequal
  have hgt := h .greater
  have hge := h .atLeast
  have hlt := h .less
  have hle := h .atMost
  unfold compareIntegers
  split
  · split <;> simp_all [Operator.word]
  · rfl

/-! ## Tests of few words -/

attribute [local simp] holdsWords

theorem holdsWords_not : holdsWords ("!" :: ws) = !holdsWords ws := by
  simp

/-- Without `!` in front, an operator compares the words on its two sides. -/
theorem holdsWords_compare (ha : a ≠ "!") : holdsWords [a, o.word, b] = true ↔ o.Holds a b := by
  have hwords : holdsWords [a, o.word, b] =
      if o.word = "=" then a == b else if o.word = "!=" then a != b else compareIntegers a o.word b := by
    simp
  rw [hwords]
  by_cases hsame : o = .same
  · subst hsame
    simp [Operator.word, Operator.Holds]
  by_cases hdiffers : o = .differs
  · subst hdiffers
    simp [Operator.word, Operator.Holds]
  · have hnotSame : o.word ≠ "=" := fun h => hsame (Operator.word_injective h)
    have hnotDiffers : o.word ≠ "!=" := fun h => hdiffers (Operator.word_injective h)
    rw [if_neg hnotSame, if_neg hnotDiffers, compareIntegers_iff ⟨hsame, hdiffers⟩]

theorem holdsWords_of_not_operator (ha : a ≠ "!") (h : ∀ o : Operator, op ≠ o.word) :
    holdsWords [a, op, b] = false := by
  have hsame : op ≠ "=" := h .same
  have hdiffers : op ≠ "!=" := h .differs
  simp [hsame, hdiffers, compareIntegers_of_not_operator h]

/-- No test of two words begins with an operator. -/
theorem holdsWords_operator : holdsWords [o.word, s] = false := by
  cases o <;> simp [Operator.word]

theorem agrees_one : Agrees [s] := by
  unfold Agrees Meets
  by_cases hnot : s = "!"
  · simp [hnot]
  · simp

theorem agrees_two : Agrees [u, s] := by
  unfold Agrees Meets
  by_cases hnot : u = "!"
  · subst hnot
    rw [holdsWords_not]
    by_cases hs : s = "!"
    · simp [hs]
    · simp
  by_cases hfull : u = "-n"
  · simp [hfull]
  by_cases hempty : u = "-z"
  · simp [hempty]
  · simp [hnot, hfull, hempty]

theorem meets_compare : Meets [a, o.word, b] ↔ o.Holds a b := by
  unfold Meets
  constructor
  · intro h
    rcases h with ⟨p, hword, hp⟩ | ⟨hnone, -⟩
    · rwa [Operator.word_injective hword]
    · exact absurd rfl (hnone o)
  · intro h
    exact .inl ⟨o, rfl, h⟩

/-- With an operator between two words, the two agree where the first word is not `!`, or
    where the comparison holds all the same. -/
theorem agrees_compare_iff : Agrees [a, o.word, b] ↔ (a = "!" → o.Holds a b) := by
  unfold Agrees
  rw [meets_compare]
  by_cases ha : a = "!"
  · subst ha
    rw [holdsWords_not, holdsWords_operator]
    simp
  · rw [holdsWords_compare ha]
    simp [ha]

theorem agrees_of_not_operator (h : ∀ o : Operator, op ≠ o.word) : Agrees [a, op, b] := by
  have hno : ¬ ∃ o : Operator, op = o.word ∧ o.Holds a b := fun ⟨o, ho, _⟩ => h o ho
  unfold Agrees Meets
  by_cases ha : a = "!"
  · subst ha
    have htwo : holdsWords [op, b] = true ↔ Meets [op, b] := agrees_two
    rw [holdsWords_not, ← htwo]
    simp [h]
  · rw [holdsWords_of_not_operator ha h]
    simp [hno, ha]

theorem meets_not {c : String} : Meets ("!" :: a :: b :: c :: ws) ↔ ¬ Meets (a :: b :: c :: ws) := by
  rw [Meets]
  · simp
  all_goals simp

/-- A negation of three words or more is judged as the words that it negates. -/
theorem agrees_not_iff {c : String} : Agrees ("!" :: a :: b :: c :: ws) ↔ Agrees (a :: b :: c :: ws) := by
  unfold Agrees
  rw [holdsWords_not, meets_not]
  rcases holdsWords (a :: b :: c :: ws) with _ | _
  · simp
  · simp

theorem agrees_of_not_negation {c d : String} (ha : a ≠ "!") : Agrees (a :: b :: c :: d :: ws) := by
  have hwords : holdsWords (a :: b :: c :: d :: ws) = false := by
    rw [holdsWords]
    all_goals simp [ha]
  have hmeets : ¬ Meets (a :: b :: c :: d :: ws) := by
    rw [Meets]
    all_goals simp [ha]
  simp [Agrees, hwords, hmeets]

/-! ## Where the two part -/

theorem not_misread_of_few (h : ws.length < 3) : ¬ Misread ws := by
  intro ⟨k, b, o, heq, _⟩
  rw [heq, List.length_append] at h
  simp at h

theorem misread_three : Misread [a, op, b] ↔ a = "!" ∧ ∃ o : Operator, op = o.word ∧ ¬ o.Holds "!" b := by
  constructor
  · intro ⟨k, b', o, heq, ho⟩
    have hlength := congrArg List.length heq
    have hk : k = 0 := by
      simp at hlength
      omega
    subst hk
    simp at heq
    exact ⟨heq.1, o, heq.2.1, heq.2.2 ▸ ho⟩
  · intro ⟨ha, o, hop, ho⟩
    exact ⟨0, b, o, by simp [ha, hop], ho⟩

theorem misread_cons {c d : String} :
    Misread (a :: b :: c :: d :: ws) ↔ a = "!" ∧ Misread (b :: c :: d :: ws) := by
  constructor
  · intro ⟨k, b', o, heq, ho⟩
    cases k with
    | zero => simp at heq
    | succ k =>
      rw [List.replicate_succ, List.cons_append, List.cons.injEq] at heq
      exact ⟨heq.1, k, b', o, heq.2, ho⟩
  · intro ⟨ha, k, b', o, heq, ho⟩
    exact ⟨k + 1, b', o, by rw [ha, heq, List.replicate_succ, List.cons_append], ho⟩

theorem agrees_three_iff : Agrees [a, op, b] ↔ ¬ Misread [a, op, b] := by
  rw [misread_three]
  by_cases hop : ∃ o : Operator, op = o.word
  · obtain ⟨o, rfl⟩ := hop
    rw [agrees_compare_iff]
    constructor
    · intro h ⟨ha, p, hword, hp⟩
      subst ha
      rw [Operator.word_injective hword] at h
      exact hp (h rfl)
    · intro h ha
      by_contra ho
      subst ha
      exact h ⟨rfl, o, rfl, ho⟩
  · have hno : ∀ o : Operator, op ≠ o.word := fun o ho => hop ⟨o, ho⟩
    refine iff_of_true (agrees_of_not_operator hno) ?_
    intro ⟨_, o, ho, _⟩
    exact hno o ho

/-- All tests hold as the number of their words decides, but for the comparisons of `!`
    that do not hold. -/
theorem agrees_iff : Agrees ws ↔ ¬ Misread ws := by
  induction ws with
  | nil =>
    refine iff_of_true ?_ (not_misread_of_few (by simp))
    simp [Agrees, Meets]
  | cons a ws ih =>
    rcases ws with _ | ⟨b, _ | ⟨c, _ | ⟨d, ws⟩⟩⟩
    · exact iff_of_true agrees_one (not_misread_of_few (by simp))
    · exact iff_of_true agrees_two (not_misread_of_few (by simp))
    · exact agrees_three_iff
    · -- with four words or more only a negation has a form
      rw [misread_cons]
      by_cases ha : a = "!"
      · subst ha
        rw [agrees_not_iff, ih]
        simp
      · simp [agrees_of_not_negation ha, ha]

/-- Tests hold as the number of their words decides, but for those that compare `!` with another
    word and that do not hold. So with an operator in the middle of three words they are compared,
    and behind `!` their comparison is negated, where the first of them is not `!` or the
    comparison holds, and in no other case. -/
theorem compares_by_count (ws : List String) (o : Operator) (a b : String) :
    ((holdsWords ws = true ↔ Meets ws) ↔ ¬ Misread ws) ∧
    (Meets [a, o.word, b] ↔ o.Holds a b) ∧ (Meets ["!", a, o.word, b] ↔ ¬ o.Holds a b) ∧
    ((holdsWords [a, o.word, b] = true ↔ o.Holds a b) ↔ (a = "!" → o.Holds a b)) ∧
    ((holdsWords ["!", a, o.word, b] = true ↔ ¬ o.Holds a b) ↔ (a = "!" → o.Holds a b)) := by
  have hthree : Meets [a, o.word, b] ↔ o.Holds a b := meets_compare
  have hfour : Meets ["!", a, o.word, b] ↔ ¬ o.Holds a b := by
    rw [meets_not, hthree]
  refine ⟨agrees_iff, hthree, hfour, ?_, ?_⟩
  · rw [← hthree]
    show Agrees _ ↔ _
    rw [agrees_compare_iff, hthree]
  · rw [← hfour]
    show Agrees _ ↔ _
    rw [agrees_not_iff, agrees_compare_iff]

/-- A mode that is `!`, which is not the basic one. -/
theorem mode_taken_for_negation :
    ¬ (holdsWords ["!", "=", "basic"] = true ↔ Operator.same.Holds "!" "basic") ∧
    holds { session := { grammar := default, vars := [("mode", "!")] } } "$\x7bmode\x7d = basic" = true := by
  constructor
  · have hwords : holdsWords ["!", "=", "basic"] = true := rfl
    have hholds : ¬ Operator.same.Holds "!" "basic" := show "!" ≠ "basic" by decide
    simp [hwords, hholds]
  · have hexpanded : expand { session := { grammar := default, vars := [("mode", "!")] } } .raw
        "$\x7bmode\x7d = basic" = "! = basic" := by
      simp [expand, expandWith, splitAtBrace, Scope.substitute, Scope.value?, Scope.commandName, Session.var?,
        Escape.apply]
    rw [holds, hexpanded]
    decide

end LineMatch.Condition
