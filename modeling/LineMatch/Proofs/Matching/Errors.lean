/-
  LineMatch.Proofs.Matching.Errors — errors are final.

  A match refuses a parameter or words left over only at a word that is there, so every
  visit up to the refusal is made at a word, and words added after the last one are never
  seen (`step_append`).

  Proved:
  - `cursor_lt_of_error`: a match that ends in an error ends at a word.
  - `finish_append_of_error`: then words added change nothing: not the status, nor the
    words behind, the values or the calls made.
  - `error_stays`: the same from the start of a list; and what a match accepts has no
    refused beginning.
-/

import LineMatch.Proofs.Matching.Reach

namespace LineMatch

/-- A word is refused, so no words to come mend it. -/
def Status.IsError (status : Status) : Prop := status = .illegalParam ∨ status = .illegalCommand

namespace Matching.Setting

variable {m : Setting} {s t : State} {status : Status} {ts us : List Token}

theorem close_eq_illegalCommand (h : (m.close s).1 = .illegalCommand) :
    m.takesRest = true ∧ m.command.args = none ∧ s.cursor < m.words.length := by
  rcases hr : m.takesRest with _ | _ <;> rcases ha : m.command.args with _ | rest <;>
    simp only [close, hr, ha] at h
  · cases h
  · cases h
  · by_cases hlt : s.cursor < m.words.length
    · exact ⟨rfl, rfl, hlt⟩
    · rw [if_neg hlt] at h
      cases h
  · split at h <;> cases h

theorem close_ne_illegalParam : (m.close s).1 ≠ .illegalParam := by
  intro h
  rcases hr : m.takesRest with _ | _ <;> rcases ha : m.command.args with _ | rest <;>
    simp only [close, hr, ha] at h
  · cases h
  · cases h
  · split at h <;> cases h
  · split at h <;> cases h

theorem cursor_lt_of_stop (h : m.step s = .stop status t) (he : status.IsError) : s.cursor < m.words.length := by
  cases move_stop h with
  | close hf =>
    rcases he with he | he
    · exact absurd he close_ne_illegalParam
    · exact (close_eq_illegalCommand he).2.2
  | refuse hv ht ho =>
    by_cases hw : (m.word? s).isSome = true
    · exact lt_of_word?_isSome hw
    · rw [if_neg hw] at he
      rcases he with he | he <;> cases he

/-- A match that ends in an error visits nothing past the last word. -/
theorem cursor_lt_of_error (h : (m.finish s).1.IsError) : s.cursor < m.words.length := by
  obtain ⟨t, hr, hstop⟩ := exists_stop m s
  exact Nat.lt_of_le_of_lt hr.cursor_le (cursor_lt_of_stop hstop h)

/-! ## Words added -/

theorem word?_append (h : s.cursor < ts.length) : (m.plain (ts ++ us)).word? s = (m.plain ts).word? s := by
  simp [word?, plain, List.getElem?_append_left h]

/-- At a word, a step does not see the words added after the last. -/
theorem step_append (h : s.cursor < ts.length) (hf : s.frames ≠ []) :
    (m.plain (ts ++ us)).step s = (m.plain ts).step s :=
  step_congr rfl rfl (word?_append h) rfl
    (fun _ => (keepsWord_of_no_target rfl).trans (keepsWord_of_no_target rfl).symm) hf

theorem stop_append_of_error (h : (m.plain ts).step s = .stop status t) (he : status.IsError) :
    (m.plain (ts ++ us)).step s = .stop status t := by
  have hlt : s.cursor < ts.length := cursor_lt_of_stop h he
  by_cases hf : s.frames = []
  · rw [step_close hf] at h ⊢
    cases h
    rcases he with he | he
    · exact absurd he close_ne_illegalParam
    obtain ⟨hr, ha, -⟩ := close_eq_illegalCommand he
    have hlt' : s.cursor < (ts ++ us).length := by
      rw [List.length_append]
      exact Nat.lt_add_right _ hlt
    rw [close_of_args_eq_none (m := m.plain ts) hr ha hlt,
      close_of_args_eq_none (m := m.plain (ts ++ us)) hr ha hlt']
  · rw [step_append hlt hf]
    exact h

/-- Where a match ends in an error, words added after the last change nothing. -/
theorem finish_append_of_error (h : ((m.plain ts).finish s).1.IsError) :
    (m.plain (ts ++ us)).finish s = (m.plain ts).finish s := by
  induction s using run_induction (m := m.plain ts) with
  | stop s status t hs =>
    rw [finish_of_stop hs] at h ⊢
    exact finish_of_stop (stop_append_of_error hs h)
  | go s t hs ih =>
    have hlt : s.cursor < ts.length := cursor_lt_of_error h
    rw [finish_of_go hs] at h ⊢
    have hf : s.frames ≠ [] := by
      intro hf
      rw [step_close hf] at hs
      cases hs
    rw [finish_of_go ((step_append hlt hf).trans hs)]
    exact ih h

/-- A match of a list of parameters that ends in an error ends in it, with the same words
    behind, values and calls, whatever words are added; and of words that it accepts every
    beginning is accepted or waits for more. -/
theorem error_stays (m : Setting) (params : List Param) (cursor : Nat) (store : Store) (ts us : List Token) :
    (((m.plain ts).finish (start params cursor store)).1.IsError →
      (m.plain (ts ++ us)).finish (start params cursor store) =
        (m.plain ts).finish (start params cursor store)) ∧
    (((m.plain (ts ++ us)).finish (start params cursor store)).1 = .ok →
      ((m.plain ts).finish (start params cursor store)).1 = .ok ∨
        ((m.plain ts).finish (start params cursor store)).1 = .incomplete) := by
  refine ⟨finish_append_of_error, fun hok => ?_⟩
  rcases hs : ((m.plain ts).finish (start params cursor store)).1 with _ | _ | _ | _
  · exact .inl rfl
  · exact .inr rfl
  · rw [finish_append_of_error (.inl hs), hs] at hok
    cases hok
  · rw [finish_append_of_error (.inr hs), hs] at hok
    cases hok

open Matching.Sample in
/-- `x` is no rate, whatever follows; of `5 fast 3` each beginning is accepted or waits. -/
theorem tune_error_stays :
    (tuning.plain (unquoted ["x"] ++ unquoted ["5"])).finish (start tune.params 0 .empty) =
        (tuning.plain (unquoted ["x"])).finish (start tune.params 0 .empty) ∧
      (((tuning.plain (unquoted ["5"])).finish (start tune.params 0 .empty)).1 = .ok ∨
        ((tuning.plain (unquoted ["5"])).finish (start tune.params 0 .empty)).1 = .incomplete) :=
  ⟨(error_stays tuning tune.params 0 .empty (unquoted ["x"]) (unquoted ["5"])).1 (.inl (by decide +kernel)),
    (error_stays tuning tune.params 0 .empty (unquoted ["5"]) (unquoted ["fast", "3"])).2 (by decide +kernel)⟩

end Matching.Setting

end LineMatch
