/-
  LineMatch.Proofs.Pattern.Anchored — a pattern read between the two ends of a text.

  A pattern of a type is read with `^(?:` before it and `)$` behind it. Where the pattern
  reads by itself, so it does between them, as the same expression between the ends of the
  text, unless a comment at its end takes what stands behind (`EndsInComment`). Where it does
  not read by itself it does not either between them, unless a parenthesis of its own closes
  the group that stands around it (`ClosesOutside`).

  Proved:
  - `read_anchored`: what a pattern reads as between the ends, if it reads by itself.
  - `closesOutside_of_read`: a pattern that reads only between the ends closes the group.
  - `wholeTexts_exact`: which patterns the check of a grammar accepts, and which texts the
    types with them.
-/

import LineMatch.Grammar.Check
import LineMatch.Proofs.Grammar.Accepted
import LineMatch.Proofs.Grammar.Rules
import LineMatch.Proofs.Pattern.Matching
import LineMatch.Proofs.Pattern.Reading

namespace LineMatch

namespace Pattern

variable {engine : Engine} {c : Char} {cs cs' rest p : List Char} {s t u : State} {b : Begun} {i : Item}
  {outer : List Begun}

/-- With `)$` behind it the text reads as well: a comment is open where it ends. -/
def EndsInComment (engine : Engine) (cs : List Char) : Prop := (read? engine (cs ++ ending)).isSome = true

instance : Decidable (EndsInComment engine cs) := inferInstanceAs (Decidable (_ = true))

/-- Reading comes to a parenthesis that closes a group while none is open. -/
def ClosesOutside (engine : Engine) (cs : List Char) : Prop :=
  ∃ t, State.Reads engine ⟨cs, {}, {}, [], []⟩ t ∧ t.outer = [] ∧ (t.flags.ahead t.rest).head? = some ')'

/-! ## Where reading ends -/

theorem item_eq_some_iff : s.item? = some i ↔ s.flags.ahead s.rest = [] ∧ s.outer = [] ∧ s.level.closed = i := by
  unfold State.item?
  cases s.flags.ahead s.rest with
  | nil => cases houter : s.outer <;> simp
  | cons c cs => simp

theorem item_open (h : s.outer ≠ []) : s.item? = none :=
  Option.eq_none_iff_forall_ne_some.2 fun _ hi => h (item_eq_some_iff.1 hi).2.1

theorem item_cons (h : s.flags.ahead s.rest = c :: cs) : s.item? = none := by
  rw [State.item?, h]

/-- The end of the text, or of a line, is the last item. -/
theorem next_dollar (h : s.rest = ['$']) : s.next? engine = some (s.push (.place (lineEnd s.flags)) 0 []) := by
  have hahead : s.flags.ahead s.rest = ['$'] := by rw [h, ahead_dollar]
  exact next_cons hahead

/-- Reading on comes to an end that is no item. -/
def State.Fails (engine : Engine) (s : State) : Prop := ∃ t, s.Reads engine t ∧ t.next? engine = none ∧ t.item? = none

/-- Past the parenthesis of the ending nothing closes the groups that are open. -/
theorem Past.fails (h : Past outer s) (houter : outer ≠ []) : s.Fails engine := by
  obtain ⟨rfl, hrest | ⟨rest, hrest, hahead⟩⟩ := h
  · rcases List.suffix_cons_iff.1 hrest with hrest | hrest
    · exact ⟨_, .single (next_dollar hrest), next_nil ahead_nil, item_open houter⟩
    · have hnil : s.flags.ahead s.rest = [] := by rw [List.suffix_nil.1 hrest, ahead_nil]
      exact ⟨s, .refl, next_nil hnil, item_open houter⟩
  · have hbrace : s.flags.ahead s.rest = '{' :: rest := by rw [hrest, ahead_cons (by decide) (by decide)]
    have hnone : s.step? engine '{' rest = none := by
      simp only [State.step?, counted_ending hahead]
      rfl
    exact ⟨s, .refl, (next_cons hbrace).trans hnone, item_cons hbrace⟩

theorem Past.within (h : Past outer s) (b : Begun) : Past (outer ++ [b]) (s.within b) :=
  ⟨congrArg (· ++ [b]) h.outer, h.rest⟩

/-- The ending closes one group only of several. -/
theorem fails_open (hahead : s.flags.ahead s.rest = ending ∨ s.flags.ahead s.rest = []) (houter : s.outer ≠ []) :
    (s.within b).Fails engine := by
  rcases hahead with hahead | hahead
  · obtain ⟨a, outer, houter⟩ := List.exists_cons_of_ne_nil houter
    have hgroups : (s.within b).outer = a :: (outer ++ [b]) := congrArg (· ++ [b]) houter
    have hclose : (s.within b).next? engine = (s.within b).closeGroup? ['$'] := next_cons (s := s.within b) hahead
    rw [State.closeGroup?, hgroups] at hclose
    obtain ⟨u, hnext, hpast⟩ : ∃ u, (s.within b).next? engine = some u ∧ Past (outer ++ [b]) u :=
      ⟨_, hclose, rfl, .inl (List.suffix_refl _)⟩
    obtain ⟨t, ht, hend, hitem⟩ := hpast.fails (by simp)
    exact ⟨t, .head hnext ht, hend, hitem⟩
  · exact ⟨_, .refl, next_nil (s := s.within b) hahead, item_open (by simp [State.within])⟩

/-- What is no item is none with the ending behind it, or goes past its parenthesis. -/
theorem fails_item (hahead : s.flags.ahead s.rest = c :: cs) (hend : s.next? engine = none)
    (hahead' : s.flags.ahead rest = c :: cs') (hrest : Ended cs cs') (hinside : c ≠ ')' ∨ s.outer ≠ []) :
    ((s.at rest).within b).Fails engine := by
  have hnext : ((s.at rest).within b).next? engine = (s.step? engine c cs').map (·.within b) :=
    (next_cons hahead').trans (step_within (s := s.at rest) hinside)
  have hextends := extends_step engine (s := s) (c := c) hrest
  rw [← next_cons hahead, hend] at hextends
  rcases hstep : s.step? engine c cs' with _ | t
  · rw [hstep] at hnext
    exact ⟨_, .refl, hnext, item_cons hahead'⟩
  · rw [hstep] at hnext
    obtain ⟨u, hu, huend, hitem⟩ := ((hextends t hstep).within b).fails (by simp)
    exact ⟨u, .head hnext hu, huend, hitem⟩

/-! ## Between the ends -/

/-- The text of a pattern between the ends of a text. -/
def betweenEnds (cs : List Char) : List Char := '^' :: '(' :: '?' :: ':' :: (cs ++ ending)

theorem anchored_eq (pattern : String) : anchored pattern = betweenEnds pattern.toList := rfl

/-- The group that stands around a pattern, behind the start of the text. -/
def fromStart : Begun := ⟨{ items := [⟨.place .textStart, 0, true⟩] }, {}, false⟩

theorem reads_fromStart (cs : List Char) :
    State.Reads engine ⟨betweenEnds cs, {}, {}, [], []⟩ (State.within ⟨cs ++ ending, {}, {}, [], []⟩ fromStart) :=
  .head rfl (.head rfl .refl)

/-- An item between the ends of the text. -/
def Item.betweenEnds (i : Item) : Item := ⟨i.expr.betweenEnds, i.depth + 2, true⟩

theorem closed_betweenEnds (i : Item) :
    Level.closed ⟨[], [⟨.place .textEnd, 0, true⟩, ⟨i.expr, i.depth + 1, true⟩, ⟨.place .textStart, 0, true⟩]⟩ =
      i.betweenEnds := by
  simp [Level.closed, choice, sequence, Item.betweenEnds, Expr.betweenEnds]

/-- The ending closes the group around the pattern, and puts the end of the text behind it. -/
theorem reads_toEnd (engine : Engine) (hahead : s.flags.ahead s.rest = ending) (houter : s.outer = []) :
    ∃ t, (s.within fromStart).Reads engine t ∧ t.next? engine = none ∧ t.item? = some s.level.closed.betweenEnds := by
  have hclose : (s.within fromStart).next? engine = some ⟨['$'], {}, ⟨[], [⟨s.level.closed.expr,
      s.level.closed.depth + 1, true⟩, ⟨.place .textStart, 0, true⟩]⟩, [], s.names⟩ := by
    have hnext : (s.within fromStart).next? engine = (s.within fromStart).step? engine ')' ['$'] := next_cons hahead
    have hgroup : (s.within fromStart).outer = [fromStart] := congrArg (· ++ [fromStart]) houter
    rw [hnext]
    simp only [State.step?, State.closeGroup?, hgroup]
    rfl
  refine ⟨_, .head hclose (.single (next_dollar rfl)), next_nil ahead_nil, ?_⟩
  exact congrArg some (closed_betweenEnds _)

theorem read_anchored_eq (h : State.Reads engine ⟨p ++ ending, {}, {}, [], []⟩ s)
    (hstart : (s.within fromStart).Reads engine t) (hend : t.next? engine = none) :
    read? engine (betweenEnds p) = t.item? :=
  read_eq ((reads_fromStart _).trans ((reads_within h).trans hstart)) hend

/-- A pattern that reads by itself reads between the ends of the text as the same between
    the ends, unless it ends in a comment. -/
theorem read_anchored (h : read? engine p = some i) :
    read? engine (betweenEnds p) = if EndsInComment engine p then none else some i.betweenEnds := by
  obtain ⟨t, hreads, hend⟩ := exists_end engine ⟨p, {}, {}, [], []⟩
  rw [read_eq hreads hend] at h
  obtain ⟨hahead, houter, rfl⟩ := item_eq_some_iff.1 h
  obtain ⟨r, hreads', hrest⟩ := reads_ended hreads (ended_append p)
  have hahead' := hrest.ahead (f := t.flags)
  rw [hahead] at hahead'
  rcases hahead'.nil_or with hr | hr
  · have hnone : (t.at r).next? engine = none := by
      have hstep : (t.at r).step? engine ')' ['$'] = none := closeGroup_outside houter
      rw [next_cons hr, hstep]
    obtain ⟨u, hu, huend, hitem⟩ := reads_toEnd engine (s := t.at r) hr houter
    have hcomment : ¬EndsInComment engine p := by
      rw [EndsInComment, read_eq hreads' hnone, item_cons hr]
      exact Bool.false_ne_true
    rw [if_neg hcomment, read_anchored_eq hreads' hu huend, hitem]
    rfl
  · have hitem : (t.at r).item? = some t.level.closed := item_eq_some_iff.2 ⟨hr, houter, rfl⟩
    have hopen : ((t.at r).within fromStart).item? = none := item_open (by simp [State.within])
    have hcomment : EndsInComment engine p := by
      rw [EndsInComment, read_eq hreads' (next_nil hr), hitem]
      rfl
    rw [if_pos hcomment, read_anchored_eq hreads' .refl (next_nil hr), hopen]

/-- A pattern that reads between the ends of the text alone closes the group around it. -/
theorem closesOutside_of_read (h : read? engine p = none) (hread : read? engine (betweenEnds p) = some i) :
    ClosesOutside engine p := by
  by_contra hclose
  obtain ⟨t, hreads, hend⟩ := exists_end engine ⟨p, {}, {}, [], []⟩
  obtain ⟨r, hreads', hrest⟩ := reads_ended hreads (ended_append p)
  have hfails : ((t.at r).within fromStart).Fails engine := by
    rcases hrest.next t.flags with ⟨hahead, hahead'⟩ | ⟨c, cs, hahead, hahead', -⟩
    · refine fails_open hahead' fun houter => ?_
      rw [read_eq hreads hend, item_eq_some_iff.2 ⟨hahead, houter, rfl⟩] at h
      cases h
    · refine fails_item hahead hend hahead' (ended_append cs) (not_and_or.1 fun hout => ?_)
      obtain ⟨rfl, houter⟩ := hout
      exact hclose ⟨t, hreads, houter, hahead ▸ rfl⟩
  obtain ⟨u, hu, huend, hitem⟩ := hfails
  rw [read_anchored_eq hreads' hu huend, hitem] at hread
  cases hread

theorem parse_of_read (h : read? engine p = some i) :
    parse? engine p = if i.depth ≤ maxDepth then some i.expr else none := by
  rw [parse?, h]
  rfl

/-- What a pattern that reads by itself is compiled to, if at all. -/
theorem compile_of_read {pattern : String} (h : read? engine pattern.toList = some i) :
    compile? engine pattern =
      if ¬EndsInComment engine pattern.toList ∧ i.depth + 2 ≤ maxDepth ∧ engine.fits (anchored pattern) = true then
        some i.expr.betweenEnds
      else none := by
  have hread := read_anchored h
  rw [compile?, anchored_eq]
  by_cases hcomment : EndsInComment engine pattern.toList
  · rw [if_pos hcomment] at hread
    have hparse : parse? engine (betweenEnds pattern.toList) = none := by
      rw [parse?, hread]
      rfl
    rw [hparse, ite_self, if_neg fun hand => hand.1 hcomment]
  · rw [if_neg hcomment] at hread
    rw [parse_of_read hread, ← ite_and]
    exact if_congr ⟨fun hand => ⟨hcomment, hand.2, hand.1⟩, fun hand => ⟨hand.2.2, hand.2.1⟩⟩ rfl rfl

end Pattern

/-! ## Types of texts -/

open Pattern

theorem Grammar.check_iff_hasPattern {engine : Engine} {g : Grammar} {t : ValueType} (hmem : t ∈ g.types)
    (hothers : ∀ r ∈ g.rules, r ≠ .readable t → r.Holds g engine) : g.check engine = .ok () ↔ t.HasPattern engine := by
  have hjudges := judges_check g engine
  constructor
  · intro h
    rw [h] at hjudges
    exact hjudges (.readable t) (List.mem_append_left _ (readable_mem_typesRules g.types [] hmem))
  · intro hpattern
    rcases hcheck : g.check engine with d | ⟨⟩
    · rw [hcheck] at hjudges
      obtain ⟨before, r, after, hrules, -, hbroken, -⟩ := hjudges
      have hr : r = .readable t := by
        by_contra hne
        exact hbroken (hothers r (by simp [hrules]) hne)
      subst hr
      exact absurd hpattern hbroken
    · rfl

/-- With any engine, of the patterns that read by themselves the check accepts those that do
    not end in a comment, leave room for the ends of the text in the limit of nesting, and fit
    with these ends. A type with one of them accepts a text just if the pattern has a match
    that spans the preprocessed text. Any other pattern that the check accepts closes the
    group that is put around it. -/
theorem wholeTexts_exact (engine : Engine) (g : Grammar) (t : ValueType) (pattern : String)
    (hmethod : t.method = .regexp pattern) (hmem : t ∈ g.types)
    (hothers : ∀ r ∈ g.rules, r ≠ .readable t → r.Holds g engine) :
    (∀ i, read? engine pattern.toList = some i →
      (g.check engine = .ok () ↔ ¬EndsInComment engine pattern.toList ∧ i.depth + 2 ≤ maxDepth ∧
        engine.fits (anchored pattern) = true) ∧
      (g.check engine = .ok () → parse? engine pattern.toList = some i.expr ∧
        ∀ text v, t.accept? text engine = some v ↔ v = t.preprocess.apply text ∧ i.expr.Spans v.toList)) ∧
    (read? engine pattern.toList = none → g.check engine = .ok () → ClosesOutside engine pattern.toList) := by
  have hcheck : g.check engine = .ok () ↔ (compile? engine pattern).isSome = true := by
    rw [Grammar.check_iff_hasPattern hmem hothers]
    constructor
    · intro h
      exact h pattern hmethod
    · rintro h pattern' hmethod'
      rw [hmethod] at hmethod'
      cases hmethod'
      exact h
  refine ⟨fun i hread => ?_, fun hread hok => ?_⟩
  · have hcompile := compile_of_read hread
    have haccepted : g.check engine = .ok () ↔ ¬EndsInComment engine pattern.toList ∧ i.depth + 2 ≤ maxDepth ∧
        engine.fits (anchored pattern) = true := by
      rw [hcheck, hcompile]
      split
      · next h => exact iff_of_true rfl h
      · next h => exact iff_of_false Bool.false_ne_true h
    refine ⟨haccepted, fun hok => ?_⟩
    have hroom := haccepted.1 hok
    rw [if_pos hroom] at hcompile
    have hdepth : i.depth ≤ maxDepth := Nat.le_trans (Nat.le_add_right _ 2) hroom.2.1
    refine ⟨(parse_of_read hread).trans (if_pos hdepth), fun text v => ?_⟩
    rw [ValueType.accept?_eq_some_iff, hmethod, Method.admits, hcompile, Option.any_some, isMatch_betweenEnds]
  · rw [hcheck] at hok
    obtain ⟨e, hcompile⟩ := Option.isSome_iff_exists.1 hok
    rw [compile?] at hcompile
    split at hcompile
    · obtain ⟨i, hreads, -⟩ := Option.bind_eq_some_iff.1 hcompile
      exact closesOutside_of_read hread hreads
    · cases hcompile

/-- In a grammar of one type nothing but its pattern can be wrong. -/
theorem Grammar.holds_alone (t : ValueType) (r : Grammar.Rule) (hr : r ∈ Grammar.rules { types := [t], commands := [] })
    (hne : r ≠ .readable t) : r.Holds { types := [t], commands := [] } .standard := by
  have hrules : r = .newType [] t ∨ r = .readable t := by simpa [rules, typesRules, commandsRules] using hr
  rcases hrules with rfl | rfl
  · exact fun u hu => absurd hu List.not_mem_nil
  · exact absurd rfl hne

namespace Sample

/-- A type of two words. -/
def switchWord : ValueType := { name := "SWITCH", method := .regexp "on|off" }

/-- The pattern closes the group that is put around it, and opens another one. -/
def unbalanced : ValueType := { name := "T", method := .regexp "a)|(?:b" }

/-- The pattern ends in a comment. -/
def explained : ValueType := { name := "T", method := .regexp "(?x)a # c" }

end Sample

open Sample in
theorem switchWord_whole :
    (∃ e, parse? .standard "on|off".toList = some e ∧ Grammar.check { types := [switchWord], commands := [] } = .ok () ∧
      ∀ text v, switchWord.accept? text = some v ↔ v = text ∧ e.Spans v.toList) ∧
    ClosesOutside .standard "a)|(?:b".toList := by
  have hread : (read? .standard "on|off".toList).isSome = true := by decide +kernel
  have hok : Grammar.check { types := [switchWord], commands := [] } = .ok () := by decide +kernel
  obtain ⟨i, hi⟩ := Option.isSome_iff_exists.1 hread
  have hexact := wholeTexts_exact .standard _ switchWord "on|off" rfl List.mem_cons_self
    (Grammar.holds_alone switchWord)
  have hunbalanced := wholeTexts_exact .standard _ unbalanced "a)|(?:b" rfl List.mem_cons_self
    (Grammar.holds_alone unbalanced)
  obtain ⟨hparse, htexts⟩ := (hexact.1 i hi).2 hok
  exact ⟨⟨i.expr, hparse, hok, htexts⟩, hunbalanced.2 (by decide +kernel) (by decide +kernel)⟩

open Sample in
/-- A pattern that is none by itself is accepted, and its type accepts more than whole
    texts. A pattern with a comment at its end is one by itself, and is refused. -/
theorem unbalanced_accepted :
    (parse? .standard "a)|(?:b".toList = none ∧ Grammar.check { types := [unbalanced], commands := [] } = .ok () ∧
      unbalanced.accept? "ax" = some "ax") ∧
    (parse? .standard "(?x)a # c".toList).isSome = true ∧
      Grammar.check { types := [explained], commands := [] } = .error (.invalidPattern "T") := by
  decide +kernel

end LineMatch
