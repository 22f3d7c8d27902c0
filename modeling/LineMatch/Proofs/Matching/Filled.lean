/-
  LineMatch.Proofs.Matching.Filled — whether a candidate has been filled by the words before.

  Up to the place of the word being completed a match records what the match of the words
  before records, and a name recorded stays so. A parameter of a list whose name is
  recorded offers nothing. It is the name of the parameter that counts: that of an
  alternative is not looked at, so it takes names of their own to keep an alternative from
  being offered when another switch has recorded it. Nor is that of the parameter for
  words left over, which is offered for one more word when it has some already.

  Proved:
  - `Reach.holds_recorded`: at the place of the word being completed, what the words before
    have recorded is recorded.
  - `folds_of_rest_recorded`: the parameter for words left over is recorded only by them.
  - `candidates_not_filled`: for the candidates of a line.
  - `filled_offered`: a candidate that is the parameter for words left over, and one that
    is an alternative, both recorded.
-/

import LineMatch.Proofs.Matching.Appending
import LineMatch.Proofs.Matching.Legal

namespace LineMatch

/-- The place is that of the last of some words, or the one behind it. -/
def AtEnd (ts : List Token) (place : Nat) : Prop := (∃ us w, ts = us ++ [w] ∧ place = us.length) ∨ place = ts.length

theorem wordAtEnd_atEnd (ts : List Token) (size : Nat) : AtEnd ts (wordAtEnd ts size).1 := by
  rcases hlast : ts.getLast? with _ | last
  · rw [wordAtEnd, hlast, List.getLast?_eq_none_iff.1 hlast]
    exact .inr rfl
  by_cases hstop : last.stop < size
  · rw [wordAtEnd, hlast]
    exact .inr (congrArg Prod.fst (if_pos hstop))
  · obtain ⟨us, rfl⟩ := List.getLast?_eq_some_iff.1 hlast
    rw [wordAtEnd_of_le_stop hlast (Nat.le_of_not_lt hstop), List.dropLast_concat]
    exact .inl ⟨us, last, rfl, rfl⟩

namespace Matching.Setting

variable {m : Setting} {s t : State} {ts : List Token} {place : Nat} {q args : Param} {name : String}

/-! ## Before the place of the word -/

/-- A run that collects candidates behind the last word is the plain run, the candidates aside. -/
theorem Reach.quiet (h : (m.completing ts place).Reach s t) (hplace : place + 1 ≠ ts.length) :
    (m.plain ts).Reach s.quiet t.quiet := by
  induction h with
  | refl => exact .refl _
  | @step t u _ hu ih =>
    refine .step ih ?_
    rw [step_quiet hplace, hu]
    rfl

/-- At the place of the word being completed a match has recorded what the words before record. -/
theorem Reach.holds_recorded (h : (m.completing ts place).Reach s t) (hl : ScansListed m.command.params s)
    (hplace : AtEnd ts place) (hc : t.cursor = place)
    (hname : ((m.plain (ts.take place)).finish s.quiet).2.store.contains name = true) :
    t.store.contains name = true := by
  rcases hplace with ⟨us, w, rfl, rfl⟩ | rfl
  · obtain ⟨kept, -, hstore⟩ := (h.store_at_word hl).2 hc
    rw [List.take_left] at hname
    rw [hstore]
    exact Store.contains_insertAll.2 (.inr hname)
  · have hquiet := h.quiet (Nat.succ_ne_self _)
    have hle : (m.plain ts).words.length ≤ t.quiet.cursor := Nat.le_of_eq hc.symm
    rw [List.take_length, finish_eq_of_reach hquiet, finish_store_of_no_words hle] at hname
    exact hname

/-- What is offered at the place of the word being completed is a choice of a parameter
    that the words before do not record. -/
theorem Offered.not_recorded (h : (m.completing ts place).Offered s q) (hl : ScansListed m.command.params s)
    (hr : Recorded m.command.params s) (hplace : AtEnd ts place) :
    let recorded := ((m.plain (ts.take place)).finish s.quiet).2.store
    ∃ p, Listed m.command.params p ∧ q ∈ p.choices ∧ recorded.contains p.name = false ∧
      (p.isSwitch = false ∨ m.command.TellsAlternatives → recorded.contains q.name = false) := by
  intro recorded
  obtain ⟨t, f, fs, p, ht, hv, htarget, hnew, hq⟩ := h
  have hc : t.cursor = place := (Option.some.inj (beq_iff_eq.1 htarget)).symm
  have hp : Listed m.command.params p := hv.listed (ht.scansListed hl)
  have hchoice : q ∈ p.choices := (List.mem_filter.1 hq).1
  have hbefore : ∀ name, t.store.contains name = false → recorded.contains name = false := by
    intro name hname
    refine Bool.eq_false_iff.2 fun hold => ?_
    rw [ht.holds_recorded hl hplace hc hold] at hname
    cases hname
  refine ⟨p, hp, hchoice, hbefore _ hnew, ?_⟩
  intro htells
  rcases hswitch : p.isSwitch with _ | _
  · rw [Param.choices_of_not_isSwitch hswitch] at hchoice
    rw [List.mem_singleton.1 hchoice]
    exact hbefore _ hnew
  · rw [Param.choices_of_isSwitch hswitch] at hchoice
    rcases htells with hnot | htells
    · rw [hnot] at hswitch
      cases hswitch
    · exact hbefore _ (alternative_new htells (ht.recorded hl hr) hp hchoice hnew)

/-! ## The parameter for words left over -/

/-- Where its name tells it apart, the parameter for words left over is recorded only by them. -/
theorem folds_of_rest_recorded (hc : m.command.TellsRest) (ha : m.command.args = some args)
    (hl : ScansListed m.command.params s) (hr : Recorded m.command.params s)
    (hname : (m.finish s).2.store.contains args.name = true) :
    ∃ t, m.Reach s t ∧ t.frames = [] ∧ m.folds t = true := by
  obtain ⟨t, ht, hstop⟩ := exists_stop m s
  have hnew : t.store.contains args.name = false := rest_new hc (ht.recorded hl hr) ha
  have hstore := step_store m t
  rw [hstop] at hstore
  have hlast : (m.finish s).2.store = t.store.insertAll (m.recordings t) := hstore
  rw [hlast] at hname
  have hsome : m.recordings t ≠ [] := by
    intro hnil
    rw [hnil] at hname
    exact Bool.false_ne_true (hnew.symm.trans hname)
  rcases hfinish : m.finish s with ⟨status, u⟩
  rw [hfinish] at hstop
  cases move_stop hstop with
  | close hf =>
    rcases hfolds : m.folds t with _ | _
    · refine absurd ?_ hsome
      rw [(inserts_of_close hf).1, foldings, hfolds]
      rfl
    · exact ⟨t, ht, hf, hfolds⟩
  | refuse hv htaker _ => exact absurd (hv.recordings_of_not_taken htaker) hsome

end Matching.Setting

/-! ## The candidates of a line -/

open Matching
open Matching.Setting (start scansListed_start)

/-- Let `recorded` be what the match of the words before the one being completed ends with.
    Each candidate of a line is a choice of a parameter of the command whose name is not
    recorded; nor is that of the candidate, unless it is an alternative and the names of
    the command do not tell its alternatives apart from the rest. The only other candidate
    is the parameter for words left over, where nothing else is offered; if its name is its
    own, it is recorded only for words left over among those before. -/
theorem candidates_not_filled (s : Session) (run : Executor) (line : String) (c : Completion)
    (hc : (s.complete? run line).1 = some c) :
    let ts := tokens line
    let place := (wordAtEnd ts (Text.size line.toList)).1
    let m := s.setting run c.command ts (some place)
    let before := s.setting run c.command (ts.take place) none
    let first := start c.command.params c.command.wordCount .empty
    let recorded := (before.finish first).2.store
    ∀ e ∈ c.candidates.entries,
      (∃ p, Listed c.command.params p ∧ e.param ∈ p.choices ∧ recorded.contains p.name = false ∧
        (p.isSwitch = false ∨ c.command.TellsAlternatives → recorded.contains e.name = false)) ∨
      (c.command.args = some e.param ∧ (∀ q, ¬ m.Offered first q) ∧
        (c.command.TellsRest → recorded.contains e.name = true →
          ∃ t, before.Reach first t ∧ t.frames = [] ∧ before.folds t = true)) := by
  intro ts place m before first recorded e he
  have hl : Setting.ScansListed c.command.params first := scansListed_start _ _ _
  have hr : Setting.Recorded c.command.params first := nofun
  obtain ⟨command, -, hcompletion, -⟩ := Session.complete?_spec hc
  have hcandidates : e ∈ (m.finish first).2.candidates.entries := by
    subst hcompletion
    exact he
  rcases Setting.mem_candidates hcandidates with he | hoffered | ⟨hargs, -, hnone⟩
  · cases he
  · have h : ((s.setting run c.command [] none).completing ts place).Offered first e.param := hoffered
    exact .inl (h.not_recorded hl hr (wordAtEnd_atEnd ts _))
  · refine .inr ⟨hargs, hnone, ?_⟩
    intro htells hname
    exact Setting.folds_of_rest_recorded (m := before) htells hargs hl hr hname

/-! ## Candidates that are filled, and others -/

open Matching.Sample

/-- After `tune 5` the `rate` is recorded, and the candidates are others. -/
theorem tune_not_filled : ∃ c, (tuning.scope.session.complete? never "tune 5 ").1 = some c ∧
    c.candidates.names = ["fast", "slow"] ∧ ∀ e ∈ c.candidates.entries,
      ((tuning.scope.session.setting never tune ((tokens "tune 5 ").take 2) none).finish
        (start tune.params 1 .empty)).2.store.contains e.name = false := by
  have hany : (tuning.scope.session.complete? never "tune 5 ").1.any
      (fun c => c.candidates.names == ["fast", "slow"]) = true := by decide +kernel
  obtain ⟨c, hc, hnames⟩ := (Option.any_eq_true _ _).1 hany
  have hnames := beq_iff_eq.1 hnames
  refine ⟨c, hc, hnames, ?_⟩
  obtain ⟨command, hcommand, hcompletion, -⟩ := Session.complete?_spec hc
  have htune : tuning.scope.session.grammar.resolve? (tokens "tune 5 ") = some tune := by rfl
  have hctune : c.command = tune := by
    rw [hcompletion]
    exact Option.some.inj (hcommand.symm.trans htune)
  intro e he
  have hfilled := candidates_not_filled tuning.scope.session never "tune 5 " c hc e he
  rw [hctune] at hfilled
  rcases hfilled with ⟨p, -, -, -, hnew⟩ | ⟨hargs, -⟩
  · exact hnew (.inr tune_tellsApart.toTellsAlternatives)
  · have hname : e.name ∈ c.candidates.names := List.mem_map_of_mem he
    have hnote : e.name = "note" := congrArg Param.name (Option.some.inj hargs).symm
    rw [hnames, hnote] at hname
    exact absurd hname (by decide)

/-- After `tune 5 x` the `note` is recorded, and it is the candidate; and so is the `speed`
    after `go 1`, as an alternative of the second switch. Both grammars are well formed. -/
theorem filled_offered :
    (tuning.scope.session.grammar.check.isOk = true ∧
      ∃ c, (tuning.scope.session.complete? never "tune 5 x ").1 = some c ∧ c.candidates.names = ["note"] ∧
        ((tuning.scope.session.setting never c.command ((tokens "tune 5 x ").take 3) none).finish
          (start c.command.params 1 .empty)).2.store.contains "note" = true) ∧
      doubling.grammar.check.isOk = true ∧
      ∃ c, (doubling.complete? never "go 1 ").1 = some c ∧ c.candidates.names = ["speed"] ∧
        ((doubling.setting never c.command ((tokens "go 1 ").take 2) none).finish
          (start c.command.params 1 .empty)).2.store.contains "speed" = true := by
  have htune : (tuning.scope.session.complete? never "tune 5 x ").1.any (fun c => c.candidates.names == ["note"] &&
      ((tuning.scope.session.setting never c.command ((tokens "tune 5 x ").take 3) none).finish
        (start c.command.params 1 .empty)).2.store.contains "note") = true := by decide +kernel
  have hgo : (doubling.complete? never "go 1 ").1.any (fun c => c.candidates.names == ["speed"] &&
      ((doubling.setting never c.command ((tokens "go 1 ").take 2) none).finish
        (start c.command.params 1 .empty)).2.store.contains "speed") = true := by decide +kernel
  obtain ⟨c, hc, htune⟩ := (Option.any_eq_true _ _).1 htune
  obtain ⟨d, hd, hgo⟩ := (Option.any_eq_true _ _).1 hgo
  simp only [Bool.and_eq_true, beq_iff_eq] at htune hgo
  exact ⟨⟨by decide +kernel, c, hc, htune⟩, by decide +kernel, d, hd, hgo⟩

end LineMatch
