/-
  LineMatch.Proofs.Matching.Legal — which store decides what is legal at a word being typed.

  Up to the place of the word being typed, a match makes the steps of the match of the
  words before it. There an optional parameter that accepts the word records it, and the
  word stays under the cursor for the parameters still to come; a mandatory one takes it
  and ends what is offered. So the store in which a candidate applies is the one that the
  words before leave, with what optional parameters have recorded of the word itself.

  Proved:
  - `finish_store_of_no_words`: past the last word a match records nothing.
  - `Reach.store_at_word`: what a match has recorded at the place of the word.
  - `offered_before_word`: the candidates of a line apply in such a store; and in that of
    the words before if their tests refer to nothing recorded since.
  - `boost_after_word`: a candidate whose test holds only because of the word itself.
-/

import LineMatch.Proofs.Matching.Appending
import LineMatch.Proofs.Matching.Collecting
import LineMatch.Proofs.Matching.Typing
import LineMatch.Proofs.Session.Reference

namespace LineMatch

namespace Matching.Setting

variable {m : Setting} {s t u : State} {f : Frame} {fs : List Frame} {p node : Param} {value : String}
  {calls : List Scope} {us : List Token} {w : Token} {x : Taken}

/-! ## Past the last word -/

/-- Past the last word a match records nothing. -/
theorem finish_store_of_no_words (h : m.words.length ≤ s.cursor) : (m.finish s).2.store = s.store := by
  induction s using run_induction (m := m) with
  | stop s status t hs =>
    rw [finish_of_stop hs]
    cases move_stop hs with
    | close _ => exact (close_of_no_words h).2.2
    | refuse _ _ _ => rfl
  | go s t hs ih =>
    rw [finish_of_go hs]
    cases move_go hs with
    | leave _ _ => exact ih h
    | skip _ _ _ => exact ih h
    | pass _ _ _ => exact ih h
    | take _ ht _ => exact absurd (cursor_lt_of_taker ht) (Nat.not_lt.2 h)
    | keep _ ht _ => exact absurd (cursor_lt_of_taker ht) (Nat.not_lt.2 h)

/-! ## At the word being typed -/

/-- An optional parameter of the command accepts the word as `x` says. -/
structure MayKeep (m : Setting) (word : String) (x : Taken) : Prop where
  listed : Listed m.command.params x.param
  optional : x.param.isOptional = true
  choice : x.node ∈ x.param.choices
  accepts : ∃ before, (x.node.accept? m.run m.scope word before).1 = some x.value

/-- Before its place the word being typed, and the candidates, leave a match alone. -/
theorem step_before_word (hlt : s.cursor < us.length)
    (hs : (m.completing (us ++ [w]) us.length).step s = .go t) : (m.plain us).step s.quiet = .go t.quiet := by
  have hf : s.frames ≠ [] := fun hf => by
    rw [step_close hf] at hs
    cases hs
  rw [step_quiet (m := m) (Nat.succ_ne_self us.length) s, ← step_typing hlt hf, hs]
  rfl

theorem mayKeep_of_taker (hl : ScansListed m.command.params s) (hc : s.cursor = us.length)
    (hv : (m.completing (us ++ [w]) us.length).Visits s f fs p)
    (ht : (m.completing (us ++ [w]) us.length).taker s p = (some (node, value), calls))
    (hk : (m.completing (us ++ [w]) us.length).keepsWord s p = true) : m.MayKeep w.text ⟨p, node, value⟩ := by
  obtain ⟨token, htoken, -, hnode, -, hacc⟩ := taker_spec ht
  have hw : token = w := by
    simpa [completing, hc, eq_comm] using htoken
  refine ⟨hv.listed hl, ?_, hnode, hw ▸ hacc⟩
  simp only [keepsWord, Bool.and_eq_true] at hk
  exact hk.1.1

/-- At the place of the word being typed the store is the one that the match of the words
    before ends with, and what optional parameters have recorded of the word. -/
theorem Reach.store_at_word (h : (m.completing (us ++ [w]) us.length).Reach s t)
    (hl : ScansListed m.command.params s) :
    (t.cursor < us.length → (m.plain us).Reach s.quiet t.quiet) ∧
      (t.cursor = us.length → ∃ kept : List Taken, (∀ x ∈ kept, m.MayKeep w.text x) ∧
        t.store = ((m.plain us).finish s.quiet).2.store.insertAll (kept.flatMap Taken.inserts)) := by
  induction h with
  | refl =>
    refine ⟨fun _ => .refl _, fun hc => ⟨[], nofun, ?_⟩⟩
    exact (finish_store_of_no_words (m := m.plain us) (s := s.quiet) (Nat.le_of_eq hc.symm)).symm
  | @step t u hr hu ih =>
    have hle : t.cursor ≤ u.cursor := step_cursor_le hu
    refine ⟨fun hlt => ?_, fun hc => ?_⟩
    · have hlt' : t.cursor < us.length := Nat.lt_of_le_of_lt hle hlt
      exact .step (ih.1 hlt') (step_before_word hlt' hu)
    rcases Nat.lt_or_eq_of_le (hc ▸ hle) with hlt | heq
    · -- the last word before has just been taken, and the match of these words is here too
      have hreach : (m.plain us).Reach s.quiet u.quiet := .step (ih.1 hlt) (step_before_word hlt hu)
      refine ⟨[], nofun, ?_⟩
      rw [finish_eq_of_reach hreach]
      exact (finish_store_of_no_words (m := m.plain us) (s := u.quiet) (Nat.le_of_eq hc.symm)).symm
    obtain ⟨kept, hkept, hstore⟩ := ih.2 heq
    cases move_go hu with
    | leave _ _ => exact ⟨kept, hkept, hstore⟩
    | skip _ _ _ => exact ⟨kept, hkept, hstore⟩
    | pass _ _ _ => exact ⟨kept, hkept, hstore⟩
    | take _ _ _ => exact absurd (heq ▸ hc) (Nat.succ_ne_self _)
    | @keep f fs p node value calls hv ht hk =>
      refine ⟨kept ++ [⟨p, node, value⟩], ?_, ?_⟩
      · exact List.forall_mem_append.2
          ⟨hkept, List.forall_mem_singleton.2 (mayKeep_of_taker (hr.scansListed hl) heq hv ht hk)⟩
      · rw [List.flatMap_append, Store.insertAll_append, ← hstore]
        simpa using Taken.record_eq t.store ⟨p, node, value⟩

/-- What a visit offers applies there. -/
theorem applies_of_mem_offers (h : node ∈ m.offers s p) : m.applies s node = true :=
  (Bool.and_eq_true_iff.1 (List.mem_filter.1 h).2).1

end Matching.Setting

open Matching
open Matching.Setting (start MayKeep scansListed_start applies_of_mem_offers)

/-- Where the line ends with its last word, that word is the one being typed. -/
theorem wordAtEnd_of_le_stop {ts : List Token} {last : Token} {size : Nat} (h : ts.getLast? = some last)
    (hsize : size ≤ last.stop) : wordAtEnd ts size = (ts.dropLast.length, last.text) := by
  rw [wordAtEnd, h, List.length_dropLast]
  exact if_neg (Nat.not_lt.2 hsize)

/-- What is legal at a word being typed. A candidate of a line that ends with its last word
    is offered by a visit of the match of the line at the place of that word, and applies
    in the store of that visit: the one that the match of the words before ends with, and
    after it what optional parameters of the command, which accept the word, have recorded
    of it. If its test refers to no name of theirs, it applies in the store of the words
    before. The only other candidate is the parameter for words left over, with an empty
    value and where nothing is offered. -/
theorem offered_before_word (s : Session) (run : Executor) (line : String) (c : Completion) (last : Token)
    (hc : (s.complete? run line).1 = some c) (hlast : (tokens line).getLast? = some last)
    (htyped : Text.size line.toList ≤ last.stop) :
    let before := (tokens line).dropLast
    let m := s.setting run c.command (tokens line) (some before.length)
    let first := start c.command.params c.command.wordCount .empty
    let recorded := ((s.setting run c.command before none).finish first).2.store
    ∀ e ∈ c.candidates.entries,
      (c.command.args = some e.param ∧ e.value = "" ∧ ∀ q, ¬ m.Offered first q) ∨
        ∃ (t : State) (f : Frame) (fs : List Frame) (p : Param) (kept : List Taken),
          m.Reach first t ∧ m.Visits t f fs p ∧ e.param ∈ m.offers t p ∧ t.cursor = before.length ∧
          (∀ x ∈ kept, m.MayKeep c.typed x) ∧ t.store = recorded.insertAll (kept.flatMap Taken.inserts) ∧
          Condition.applies m.scope t.store e.param = true ∧
          ((∀ x ∈ kept.flatMap Taken.inserts, ∀ test, e.param.test = some test →
              x.1.name ∉ references test) →
            Condition.applies m.scope recorded e.param = true) := by
  intro before m first recorded e he
  obtain ⟨command, -, hcompletion, -⟩ := Session.complete?_spec hc
  rw [wordAtEnd_of_le_stop hlast htyped] at hcompletion
  subst hcompletion
  have hwords : tokens line = before ++ [last] := by
    rw [List.getLast?_eq_some_iff] at hlast
    obtain ⟨init, hinit⟩ := hlast
    simp only [before, hinit, List.dropLast_concat]
  have hm : m = (s.setting run command [] none).completing (before ++ [last]) before.length := by
    rw [← hwords]
    rfl
  rcases Setting.mem_candidates he with he | hoffered | hargs
  · cases he
  · obtain ⟨t, f, fs, p, hr, hv, htarget, -, hoffers⟩ := hoffered
    have happlies : m.applies t e.param = true := applies_of_mem_offers hoffers
    have hcursor : t.cursor = before.length := (Option.some.inj (beq_iff_eq.1 htarget)).symm
    have hreach : ((s.setting run command [] none).completing (before ++ [last]) before.length).Reach first t :=
      hm ▸ hr
    obtain ⟨kept, hkept, hstore⟩ := (hreach.store_at_word (scansListed_start _ _ _)).2 hcursor
    refine .inr ⟨t, f, fs, p, kept, hr, hv, hoffers, hcursor, fun x hx => ?_, hstore, happlies, fun hnames => ?_⟩
    · obtain ⟨hlisted, hoptional, hchoice, haccepts⟩ := hkept x hx
      exact ⟨hlisted, hoptional, hchoice, haccepts⟩
    · rw [← Condition.applies_insertAll hnames]
      exact (congrArg (Condition.applies m.scope · e.param) hstore).symm.trans happlies
  · exact .inl hargs

/-! ## A command with a test on another parameter -/

namespace Matching.Sample

/-- Takes a `speed`, and a `boost` where the `speed` is 5. -/
def boosted : Command where
  name := "go"
  params := [
    { name := "speed", type := "NUM", isOptional := true },
    { name := "boost", type := "NUM", isOptional := true, test := some "${speed} = 5" }]

def boosting : Session where
  grammar := { types := [{ name := "NUM", method := .unsignedInteger none none }], commands := [boosted] }

end Matching.Sample

open Matching.Sample

/-- After `go 5`, the word `5` is being typed, and `boost` is offered in a store that holds it. -/
theorem boost_offered : ∃ c, (boosting.complete? never "go 5").1 = some c ∧
    ∃ e ∈ c.candidates.entries, e.param.test.isSome = true ∧
      ∃ t, (boosting.setting never c.command (tokens "go 5") (some 1)).Reach
        (start c.command.params c.command.wordCount .empty) t ∧
        Condition.applies (boosting.setting never c.command (tokens "go 5") (some 1)).scope t.store e.param = true := by
  have hany : (boosting.complete? never "go 5").1.any (fun c =>
      c.command.args.isNone && c.candidates.entries.any fun e => e.param.test.isSome) = true := by decide +kernel
  obtain ⟨c, hc, hce⟩ := (Option.any_eq_true _ _).1 hany
  obtain ⟨hargs, hce⟩ := Bool.and_eq_true_iff.1 hce
  obtain ⟨e, he, htest⟩ := List.any_eq_true.1 hce
  refine ⟨c, hc, e, he, htest, ?_⟩
  have hlast : (tokens "go 5").getLast? = some ⟨"5", false, 3, 4⟩ := by decide +kernel
  rcases offered_before_word boosting never "go 5" c _ hc hlast (by decide +kernel) e he with
    ⟨hsome, -⟩ | ⟨t, -, -, -, -, hr, -, -, -, -, -, happlies, -⟩
  · rw [hsome] at hargs
    cases hargs
  · exact ⟨t, hr, happlies⟩

/-- The words before `5` record nothing, and then the test of `boost` does not hold. The
    grammar is well formed, the command has no parameter for words left over, and yet
    `boost` is a candidate at `5`. -/
theorem boost_after_word : boosting.grammar.check.isOk = true ∧
    ∃ c, (boosting.complete? never "go 5").1 = some c ∧ c.command.args.isNone = true ∧
      ∃ e ∈ c.candidates.entries,
        Condition.applies (boosting.setting never c.command (tokens "go 5").dropLast none).scope
          ((boosting.setting never c.command (tokens "go 5").dropLast none).finish
            (start c.command.params c.command.wordCount .empty)).2.store e.param = false := by
  refine ⟨by decide +kernel, ?_⟩
  have hany : (boosting.complete? never "go 5").1.any (fun c =>
      c.command.args.isNone && c.candidates.entries.any fun e =>
        !Condition.applies (boosting.setting never c.command (tokens "go 5").dropLast none).scope
          ((boosting.setting never c.command (tokens "go 5").dropLast none).finish
            (start c.command.params c.command.wordCount .empty)).2.store e.param) = true := by decide +kernel
  obtain ⟨c, hc, hce⟩ := (Option.any_eq_true _ _).1 hany
  obtain ⟨hargs, hce⟩ := Bool.and_eq_true_iff.1 hce
  obtain ⟨e, he, hfalse⟩ := List.any_eq_true.1 hce
  exact ⟨c, hc, hargs, e, he, by simpa using hfalse⟩

end LineMatch
