/-
  LineMatch.Proofs.Matching.Calls — when the match of a line runs an action.

  An action is run to see whether a choice takes the word under the cursor, and sees that
  word alone. Nothing is asked of the executor: what it answers may hang on all calls made
  before.

  Proved:
  - `checks_of_call?`: what is in scope in such a call.
  - `Tried.calledFor`: where the match stands when it makes one.
  - `answered`: what comes of it: status zero records the word, any other leaves the store
    alone.
  - `calls_keep_discipline`: all this for each call made in the match of a line, with the
    order in which they are made.
-/

import LineMatch.Proofs.Matching.Appending
import LineMatch.Proofs.Matching.Collecting
import LineMatch.Proofs.Matching.Trials

namespace LineMatch

/-! ## In scope -/

/-- The action of the parameter's type is in scope, on a store with the word alone. -/
structure Scope.Checks (call scope : Scope) (p : Param) (word : String) : Prop where
  session : call.session = scope.session
  command : call.command? = scope.command?
  action : ∃ t a, scope.session.grammar.type? p.type = some t ∧ t.method = .code a ∧ call.action? = some a ∧
    call.store? = some ⟨[⟨checkedParam t.name, word⟩]⟩

theorem ValueType.method_of_action? {t : ValueType} {a : Action} (h : t.action? = some a) : t.method = .code a := by
  unfold action? at h
  split at h
  · next b hm =>
    rw [hm, Option.some.inj h]
  · cases h

/-- A call is made for a word that the parameter admits, with the action of its type. -/
theorem Param.call?_eq_some {p : Param} {scope call : Scope} {word : String} (h : p.call? scope word = some call) :
    p.admits word = true ∧ ∃ t a, scope.session.grammar.type? p.type = some t ∧ t.method = .code a ∧
      call = scope.checking t a word := by
  unfold Param.call? at h
  split at h
  · next hadmits =>
    obtain ⟨t, ht, h⟩ := Option.bind_eq_some_iff.1 h
    obtain ⟨a, ha, rfl⟩ := Option.map_eq_some_iff.1 h
    exact ⟨hadmits, t, a, ht, t.method_of_action? ha, rfl⟩
  · cases h

theorem checks_of_call? {p : Param} {scope call : Scope} {word : String} (h : p.call? scope word = some call) :
    p.admits word = true ∧ call.Checks scope p word := by
  obtain ⟨hadmits, t, a, ht, hmethod, rfl⟩ := Param.call?_eq_some h
  exact ⟨hadmits, rfl, rfl, t, a, ht, hmethod, rfl, rfl⟩

/-- What a parameter makes of a word for which a call is made is what the answer says. -/
theorem accept?_of_call? {p : Param} {scope call : Scope} {word : String} (h : p.call? scope word = some call)
    (run : Executor) (calls : List Scope) : (p.accept? run scope word calls).1 = verdict word (run calls call) := by
  obtain ⟨hadmits, t, a, ht, hmethod, rfl⟩ := Param.call?_eq_some h
  simp [Param.accept?, hadmits, ht, ValueType.judge, ValueType.action?, hmethod]

namespace Matching.Setting

variable {m : Setting} {s first : State} {x : Trial} {call : Scope}

/-! ## Where the match stands -/

/-- Where the match stands that makes the call `call` in the trial `x`. -/
structure CalledFor (m : Setting) (first : State) (x : Trial) (call : Scope) : Prop where
  reached : m.Reach first x.state
  /-- The parameter stands under the index of the innermost list, and its test holds. -/
  visited : ∃ f fs, m.Visits x.state f fs x.param
  listed : Listed m.command.params x.param
  choice : x.node ∈ x.param.choices
  /-- The test of the choice holds. -/
  applies : m.applies x.state x.node = true
  unrecorded : x.state.store.contains x.param.name = false
  /-- The word is the one under the cursor. -/
  word : ∃ token, m.words[x.state.cursor]? = some token ∧ token.text = x.word
  past : first.cursor ≤ x.state.cursor
  keyword : ∀ k, x.node.keyword? = some k → Keyword.begins k x.word = true
  checks : call.Checks m.scope x.node x.word

theorem Tried.calledFor (h : m.Tried x) (hr : m.Reach first x.state) (hl : ScansListed m.command.params first)
    (hcall : m.callIn x = some call) : m.CalledFor first x call := by
  obtain ⟨⟨f, fs, hv⟩, hword, hnew, hchoice, happlies⟩ := h
  obtain ⟨hadmits, hchecks⟩ := checks_of_call? hcall
  refine ⟨hr, ⟨f, fs, hv⟩, hv.listed (hr.scansListed hl), hchoice, happlies, hnew, word?_eq_some hword, hr.cursor_le,
    ?_, hchecks⟩
  intro k hk
  unfold Param.admits at hadmits
  rw [hk] at hadmits
  exact hadmits

/-! ## What comes of a call -/

/-- What comes of the call `call`, made in the trial `x`. -/
inductive Answered (m : Setting) (x : Trial) (call : Scope) : Prop
  /-- With status zero it ends the visit, and the word is recorded as what was written, or
      as it is where nothing was. -/
  | taken (o : Output) : m.run x.before call = .ok o → o.status = 0 → (m.trials x.state).getLast? = some x →
      (m.step x.state).state.store =
        x.state.store.record x.param x.node (if o.stdout.isEmpty then x.word else o.stdout) → Answered m x call
  /-- Otherwise the choice does not take the word. If there is none left to try, nothing
      is recorded. -/
  | refused : (∀ o, m.run x.before call = .ok o → o.status ≠ 0) → m.outcome x = none →
      ((m.trials x.state).getLast? = some x → (m.step x.state).state.store = x.state.store) → Answered m x call

theorem verdict_cases (word : String) (answer : Except RunFault Output) :
    (∃ o, answer = .ok o ∧ o.status = 0 ∧
      verdict word answer = some (if o.stdout.isEmpty then word else o.stdout)) ∨
    ((∀ o, answer = .ok o → o.status ≠ 0) ∧ verdict word answer = none) := by
  rcases answer with fault | o
  · exact .inr ⟨nofun, rfl⟩
  by_cases hs : o.status = 0
  · refine .inl ⟨o, rfl, hs, ?_⟩
    have hsuccess : o.isSuccess = true := beq_iff_eq.2 hs
    simp only [verdict, hsuccess, Bool.not_true, Bool.false_eq_true, if_false]
    split <;> rfl
  · have hfailure : o.isSuccess = false := beq_false_of_ne hs
    refine .inr ⟨?_, by simp [verdict, hfailure]⟩
    intro o' ho'
    cases ho'
    exact hs

theorem answered (h : x ∈ m.trials s) (hcall : m.callIn x = some call) : m.Answered x call := by
  obtain ⟨rfl, ⟨f, fs, hv⟩, -⟩ := mem_trials h
  have hout : m.outcome x = verdict x.word (m.run x.before call) := accept?_of_call? hcall m.run x.before
  rcases verdict_cases x.word (m.run x.before call) with ⟨o, ho, hs, hverdict⟩ | ⟨hs, hverdict⟩
  · rcases hv.tries with hnil | ⟨word, -, -, htries⟩
    · rw [hnil] at h
      cases h
    rw [hverdict] at hout
    have hlast := htries.last_of_accepts h (by rw [hout]; rfl)
    refine .taken o ho hs hlast ?_
    rw [hv.store, lastOutcome, hlast, Option.bind_some, hout]
    rfl
  · rw [hverdict] at hout
    refine .refused hs hout ?_
    intro hlast
    rw [hv.store, lastOutcome, hlast, Option.bind_some, hout]
    rfl

end Matching.Setting

/-! ## The calls made for a line -/

open LineMatch.Matching
open LineMatch.Matching.Setting (start scansListed_start)

theorem Session.parse_calls (s : Session) (run : Executor) {line : String} {c : Command}
    (h : s.grammar.resolve? (tokens line) = some c) :
    (s.parse run line).2 = (s.setting run c (tokens line) none).result.2.calls := by
  simp only [Session.parse, h]

theorem Session.complete?_calls (s : Session) (run : Executor) {line : String} {c : Command}
    (h : s.grammar.resolve? (tokens line) = some c) :
    (s.complete? run line).2 =
      let place := (wordAtEnd (tokens line) (Text.size line.toList)).1
      if place < c.wordCount then [] else (s.setting run c (tokens line) (some place)).result.2.calls := by
  simp only [Session.complete?, h]
  split <;> rfl

theorem result_calls (m : Setting) :
    m.result.2.calls = m.callsIn (m.trace (start m.command.params m.command.wordCount .empty)) := by
  rw [Setting.result, Setting.finish_calls]
  exact List.append_nil _

/-- The calls made to parse a line or to complete it, the last first, are those of the
    trials of its match. Each trial is made after the calls of those before it, and at a
    word no earlier than theirs; a visit tries a choice of its parameter once at most. Each
    call is made with the command in scope, where the match stands as `CalledFor` says, and
    changes the store as `Answered` says. -/
theorem calls_keep_discipline (s : Session) (run : Executor) (line : String) :
    let ts := tokens line
    (s.grammar.resolve? ts = none → (s.parse run line).2 = [] ∧ (s.complete? run line).2 = []) ∧
      ∀ c, s.grammar.resolve? ts = some c →
        let first := start c.params c.wordCount .empty
        let place := (wordAtEnd ts (Text.size line.toList)).1
        let plain := s.setting run c ts none
        let completing := s.setting run c ts (some place)
        (s.parse run line).2 = plain.callsIn (plain.trace first) ∧
          (s.complete? run line).2 =
            (if place < c.wordCount then [] else completing.callsIn (completing.trace first)) ∧
          ∀ target, let m := s.setting run c ts target
            m.Chained [] (m.trace first) ∧
              (m.trace first).Pairwise (fun x y => x.state.cursor ≤ y.state.cursor) ∧
              (∀ t, m.Reach first t → m.trials t = [] ∨
                ∃ f fs p, m.Visits t f fs p ∧ ((m.trials t).map Trial.node).Sublist p.choices) ∧
              ∀ x ∈ m.trace first, ∀ call, m.callIn x = some call →
                call.command? = some c ∧ m.CalledFor first x call ∧ m.Answered x call := by
  intro ts
  refine ⟨?_, ?_⟩
  · intro hnone
    simp only [Session.parse, Session.complete?, ts] at hnone ⊢
    rw [hnone]
    exact ⟨rfl, rfl⟩
  intro c hc first place plain completing
  refine ⟨?_, ?_, ?_⟩
  · rw [s.parse_calls run hc]
    exact result_calls plain
  · rw [s.complete?_calls run hc]
    show (if place < c.wordCount then [] else completing.result.2.calls) = _
    rw [result_calls completing]
    rfl
  intro target m
  refine ⟨m.chained_trace first, m.trace_in_order first, ?_, ?_⟩
  · intro t _
    by_cases hv : ∃ f fs p, m.Visits t f fs p
    · obtain ⟨f, fs, p, hv⟩ := hv
      rcases hv.tries with hnil | ⟨word, -, -, htries⟩
      · exact .inl hnil
      · exact .inr ⟨f, fs, p, hv, htries.sublist⟩
    · exact .inl (Setting.trials_eq_nil fun f fs p h => hv ⟨f, fs, p, h⟩)
  · intro x hx call hcall
    obtain ⟨hr, hmem⟩ := Setting.mem_trace hx
    obtain ⟨-, htried⟩ := Setting.mem_trials hmem
    have hfor := htried.calledFor hr (scansListed_start _ _ _) hcall
    exact ⟨hfor.checks.command, hfor, Setting.answered hmem hcall⟩

/-! ## A command with colors -/

namespace Matching.Sample

/-- Takes a color, and may take another one under it. -/
def paint : Command where
  name := "paint"
  params := [
    { name := "color", type := "COLOR" },
    { name := "under", type := "COLOR", isOptional := true,
      mode := .switch [
        { name := "coat", type := "COLOR" },
        { name := "none", type := "COLOR", mode := .subcommand "none" }] }]

def painting : Session where
  grammar := {
    types := [{ name := "COLOR", method := .code { script := "check-color ${value}" } }]
    commands := [paint] }

/-- Knows no color after the first. -/
def tiring : Executor := fun calls _ => .ok { status := calls.length }

end Matching.Sample

open Matching.Sample in
/-- In `paint red none` the executor is asked for `red` and then twice for `none`. -/
theorem paint_calls : ∃ c, painting.grammar.resolve? (tokens "paint red none") = some c ∧
    let m := painting.setting tiring c (tokens "paint red none") none
    let first := start c.params c.wordCount .empty
    (painting.parse tiring "paint red none").2.length = 3 ∧
      ∃ x ∈ m.trace first, ∃ call, m.callIn x = some call ∧ call.command? = some c ∧
        m.CalledFor first x call ∧ m.Answered x call := by
  have hany : (painting.grammar.resolve? (tokens "paint red none")).any (fun c =>
      (((painting.setting tiring c (tokens "paint red none") none).trace
        (start c.params c.wordCount .empty)).any fun x =>
          ((painting.setting tiring c (tokens "paint red none") none).callIn x).isSome)) = true := by decide +kernel
  obtain ⟨c, hc, hx⟩ := (Option.any_eq_true _ _).1 hany
  obtain ⟨x, hx, hcall⟩ := List.any_eq_true.1 hx
  obtain ⟨call, hcall⟩ := Option.isSome_iff_exists.1 hcall
  obtain ⟨-, -, hall⟩ := (calls_keep_discipline painting tiring "paint red none").2 c hc
  exact ⟨c, hc, by decide +kernel, x, hx, call, hcall, (hall none).2.2.2 x hx call hcall⟩

end LineMatch
