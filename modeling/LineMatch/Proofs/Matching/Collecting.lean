/-
  LineMatch.Proofs.Matching.Collecting — collecting candidates leaves a match alone.

  A match reads its target in two places: where candidates are offered, and where the
  last word is kept under the cursor because it is the one being completed. With any
  other target no word is kept, and candidates are read by nothing but the offers. So a
  step with a target is, the candidates aside (`State.quiet`), the step without one.

  Proved:
  - `step_quiet`: a step with a target is the plain step, the candidates aside.
  - `finish_quiet`: and so is a whole match.
  - `collecting_disturbs_nothing`: status, words behind, values and calls are those of the
    plain match; and completion after the last word has the status of the line.
-/

import LineMatch.Line.Basic
import LineMatch.Proofs.Matching.Reach

namespace LineMatch

namespace Matching

/-- The state without its candidates. -/
def State.quiet (s : State) : State := { s with candidates := .empty }

def Next.quiet : Next → Next
  | .go s => .go s.quiet
  | .stop status s => .stop status s.quiet

namespace Setting

variable {m : Setting} {ts : List Token} {target : Nat}

theorem firstToAccept_quiet (s : State) (word : String) (ps : List Param) (calls : List Scope) :
    m.firstToAccept s.quiet word ps calls = m.firstToAccept s word ps calls := by
  induction ps generalizing calls with
  | nil => rfl
  | cons q qs ih =>
    rw [firstToAccept, firstToAccept]
    simp only [ih]
    rfl

/-- What takes a word hangs neither on the target nor on the candidates. -/
theorem taker_quiet (m : Setting) (ts : List Token) (target : Nat) (s : State) (p : Param) :
    (m.plain ts).taker s.quiet p = (m.completing ts target).taker s p := by
  have hsame : (m.plain ts).taker s p = (m.completing ts target).taker s p := by
    refine taker_congr ?_ ?_ ?_ p <;> rfl
  rw [← hsame]
  simp only [taker, firstToAccept_quiet]
  rfl

theorem offer_plain (s : State) (p : Param) : (m.plain ts).offer s p = s.candidates := by
  simp [offer, atTarget, plain]

/-- A word is kept only at a target that is the place of the last word. -/
theorem keepsWord_of_target_ne (h : target + 1 ≠ ts.length) (s : State) (p : Param) :
    (m.completing ts target).keepsWord s p = false := by
  rcases hk : (m.completing ts target).keepsWord s p with _ | _
  · rfl
  · simp [keepsWord, atTarget, completing] at hk
    omega

theorem close_quiet (m : Setting) (ts : List Token) (target : Nat) (s : State) : (m.plain ts).close s.quiet =
    (((m.completing ts target).close s).1, ((m.completing ts target).close s).2.quiet) := by
  rcases hr : m.takesRest with _ | _
  · simp [close, plain, completing, hr]
  rcases ha : m.command.args with _ | args
  · simp [close, plain, completing, hr, ha, State.quiet]
  · by_cases hlt : s.cursor < ts.length <;>
      simp [close, plain, completing, hr, ha, hlt, State.quiet, offerRest]

/-- A step with a target is the plain step, the candidates aside. -/
theorem step_quiet (h : target + 1 ≠ ts.length) (s : State) :
    (m.plain ts).step s.quiet = ((m.completing ts target).step s).quiet := by
  rcases hf : s.frames with _ | ⟨f, fs⟩
  · have hf' : s.quiet.frames = [] := hf
    rw [step_close hf, step_close hf', close_quiet m ts target]
    rfl
  have hf' : s.quiet.frames = f :: fs := hf
  rcases hp : f.params[f.index]? with _ | p
  · rw [step_leave hf hp, step_leave hf' hp]
    rfl
  rcases ha : (m.completing ts target).applies s p with _ | _
  · have ha' : (m.plain ts).applies s.quiet p = false := ha
    rw [step_skip hf hp ha, step_skip hf' hp ha']
    rfl
  have hv : (m.completing ts target).Visits s f fs p := ⟨hf, hp, ha⟩
  have hv' : (m.plain ts).Visits s.quiet f fs p := ⟨hf', hp, ha⟩
  have htaker := taker_quiet m ts target s p
  have hoffer : (m.plain ts).offer s.quiet p = .empty := offer_plain s.quiet p
  rw [hv.step_eq, hv'.step_eq]
  rcases ht : (m.completing ts target).taker s p with ⟨_ | ⟨node, value⟩, calls⟩
  · rw [ht] at htaker
    rcases ho : p.isOptional with _ | _
    · rw [visit_refuse ht ho, visit_refuse htaker ho, hoffer]
      rfl
    · rw [visit_pass ht ho, visit_pass htaker ho, hoffer]
      rfl
  · rw [ht] at htaker
    rw [visit_take ht (keepsWord_of_target_ne h s p), visit_take htaker (keepsWord_of_no_target rfl), hoffer]
    rfl

theorem finish_quiet (h : target + 1 ≠ ts.length) (s : State) : (m.plain ts).finish s.quiet =
    (((m.completing ts target).finish s).1, ((m.completing ts target).finish s).2.quiet) := by
  induction s using run_induction (m := m.completing ts target) with
  | stop s status t hs =>
    have hquiet := step_quiet (m := m) h s
    rw [hs] at hquiet
    rw [finish_of_stop hs, finish_of_stop hquiet]
  | go s t hs ih =>
    have hquiet := step_quiet (m := m) h s
    rw [hs] at hquiet
    rw [finish_of_go hs, finish_of_go hquiet, ih]

end Setting

end Matching

/-! ## Lines -/

open LineMatch.Matching
open LineMatch.Matching.Setting (start finish_quiet)

/-- A line with a completion names a command, and the completion is what its match with
    the place of the word at the end as the target comes to. -/
theorem Session.complete?_spec {s : Session} {run : Executor} {line : String} {c : Completion}
    (h : (s.complete? run line).1 = some c) :
    ∃ command, s.grammar.resolve? (tokens line) = some command ∧
      let m := s.setting run command (tokens line) (some (wordAtEnd (tokens line) (Text.size line.toList)).1)
      c = ⟨command, m.result.1, m.result.2.candidates, (wordAtEnd (tokens line) (Text.size line.toList)).2⟩ ∧
        (s.complete? run line).2 = m.result.2.calls := by
  rcases hc : s.grammar.resolve? (tokens line) with _ | command
  · simp [complete?, hc] at h
  simp only [complete?, hc] at h ⊢
  split at h
  · cases h
  · next hplace =>
    rw [if_neg hplace]
    exact ⟨command, rfl, (Option.some.inj h).symm, rfl⟩

/-- Where the last word ends before the line does, or there is none, the word at the end
    is a new one. -/
theorem wordAtEnd_of_stop_lt {ts : List Token} {size : Nat} (h : ∀ last ∈ ts.getLast?, last.stop < size) :
    wordAtEnd ts size = (ts.length, "") := by
  rw [wordAtEnd]
  split
  · next last hlast => rw [if_pos (h last hlast)]
  · next hnone => rw [List.getLast?_eq_none_iff.1 hnone]; rfl

/-- Collecting candidates does not disturb a match. With any target but the place of the
    last word, and whatever candidates there are at the start, the match of a list of
    parameters has the status, the words behind, the values and the calls of the match
    without a target. So a line that ends behind its last word is completed with the
    status that it has, and with the same calls. -/
theorem collecting_disturbs_nothing :
    (∀ (m : Setting) (params : List Param) (cursor : Nat) (store found : Store) (ts : List Token) (target : Nat),
      target + 1 ≠ ts.length →
        let plain := (m.plain ts).finish (start params cursor store)
        let collecting := (m.completing ts target).finish { start params cursor store with candidates := found }
        collecting.1 = plain.1 ∧ collecting.2.cursor = plain.2.cursor ∧ collecting.2.store = plain.2.store ∧
          collecting.2.calls = plain.2.calls) ∧
      ∀ (s : Session) (run : Executor) (line : String) (c : Completion),
        (∀ last ∈ (tokens line).getLast?, last.stop < Text.size line.toList) →
          (s.complete? run line).1 = some c →
            c.status = (s.parse run line).1.status ∧ (s.complete? run line).2 = (s.parse run line).2 := by
  constructor
  · intro m params cursor store found ts target htarget plain collecting
    have h : plain = (collecting.1, collecting.2.quiet) :=
      finish_quiet htarget { start params cursor store with candidates := found }
    rw [h]
    exact ⟨rfl, rfl, rfl, rfl⟩
  · intro s run line c hlast hc
    obtain ⟨command, hcommand, hcompletion, hcalls⟩ := Session.complete?_spec hc
    rw [wordAtEnd_of_stop_lt hlast] at hcompletion hcalls
    let m := s.setting run command (tokens line) none
    have htarget : (tokens line).length + 1 ≠ (tokens line).length := Nat.succ_ne_self _
    have h := finish_quiet (m := m) htarget (start command.params command.wordCount .empty)
    have hparse : (s.parse run line).1.status = m.result.1 ∧ (s.parse run line).2 = m.result.2.calls := by
      simp only [Session.parse, hcommand]
      exact ⟨rfl, rfl⟩
    rw [hparse.1, hparse.2, hcalls, hcompletion]
    exact ⟨(congrArg Prod.fst h).symm, (congrArg (fun r => r.2.calls) h).symm⟩

open Sample in
/-- The place after `5` is not that of the last word, and `tune 5 ` ends behind its last
    word: its completion has the status of the line. -/
theorem tune_collecting :
    ((tuning.completing (unquoted ["5"]) 1).finish (start tune.params 0 .empty)).1 =
        ((tuning.plain (unquoted ["5"])).finish (start tune.params 0 .empty)).1 ∧
      ∃ c, (tuning.scope.session.complete? never "tune 5 ").1 = some c ∧
        c.status = (tuning.scope.session.parse never "tune 5 ").1.status := by
  have hsome : (tuning.scope.session.complete? never "tune 5 ").1.isSome = true := by decide +kernel
  obtain ⟨c, hc⟩ := Option.isSome_iff_exists.1 hsome
  have hlast : ∀ last ∈ (tokens "tune 5 ").getLast?, last.stop < Text.size "tune 5 ".toList := by decide +kernel
  exact ⟨(collecting_disturbs_nothing.1 tuning tune.params 0 .empty .empty (unquoted ["5"]) 1 (by decide)).1,
    c, hc, (collecting_disturbs_nothing.2 tuning.scope.session never "tune 5 " c hlast hc).1⟩

end LineMatch
