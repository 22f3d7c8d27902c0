/-
  LineMatch.Proofs.Matching.Boundary — completion after the last word.

  Two runs are compared: the match of the words `ts` with the candidates for the place
  after the last, and the plain match of `ts` with one more word `w`. They see the same
  words until the cursor stands behind `ts`; there the first sees no word, and what it
  visits it offers, while the second tries `w`. So they go through states that are alike
  until `w` is taken or both stop (`step_alike`), as long as an answer of the executor
  does not hang on the calls made before it.

  Proved:
  - `follow`, `followed`: until `w` is taken each run goes where the other does.
  - `offered_of_takes`: what takes `w` was offered.
  - `takes_of_offered`: if what was offered accepts `w`, then `w` is taken.
  - `end_of_not_taken`: how the one match ends where `w` is not taken, by the end of the
    other.
  - `completion_at_boundary`: all this from the start of a list.
-/

import LineMatch.Proofs.Matching.Errors
import LineMatch.Proofs.Matching.Offers

namespace LineMatch

/-- What a steady executor makes of a word does not hang on the calls made before. -/
theorem Param.accept?_steady {run : Executor} (hrun : run.IsSteady) (p : Param) (scope : Scope) (text : String)
    (calls calls' : List Scope) : (p.accept? run scope text calls).1 = (p.accept? run scope text calls').1 := by
  unfold Param.accept?
  split
  · split
    · unfold ValueType.judge
      split
      · rfl
      · exact congrArg (verdict text) (hrun _ _ _)
    · rfl
  · rfl

namespace Matching.Setting

variable {m : Setting} {s t u s' t' : State} {f : Frame} {fs : List Frame} {p q node : Param} {word : String}
  {ts : List Token} {w : Token} {x : Taken}

/-- The parameter accepts the word. -/
def Accepts (m : Setting) (q : Param) (word : String) : Prop :=
  ∃ calls, (q.accept? m.run m.scope word calls).1.isSome = true

/-! ## Steady executors -/

/-- The same lists, words behind and values. -/
structure Alike (s t : State) : Prop where
  frames : s.frames = t.frames
  cursor : s.cursor = t.cursor
  store : s.store = t.store

theorem Alike.applies (h : Alike s t) (p : Param) : m.applies s p = m.applies t p := by
  unfold Setting.applies
  rw [h.store]

theorem firstToAccept_steady (hrun : m.run.IsSteady) (h : Alike s t) (ps : List Param) (calls calls' : List Scope) :
    (m.firstToAccept s word ps calls).1 = (m.firstToAccept t word ps calls').1 := by
  induction ps generalizing calls calls' with
  | nil => rfl
  | cons q qs ih =>
    rw [firstToAccept, firstToAccept, h.applies q]
    by_cases ha : m.applies t q = true
    · rw [if_pos ha, if_pos ha]
      have hq := Param.accept?_steady hrun q m.scope word calls calls'
      rcases hv : q.accept? m.run m.scope word calls with ⟨_ | v, after⟩ <;>
        rcases hv' : q.accept? m.run m.scope word calls' with ⟨_ | v', after'⟩ <;>
        rw [hv, hv'] at hq
      · exact ih after after'
      · cases hq
      · cases hq
      · cases hq
        rfl
    · rw [if_neg ha, if_neg ha]
      exact ih calls calls'

theorem taker_steady (hrun : m.run.IsSteady) (h : Alike s t) (p : Param) :
    (m.taker s p).1 = (m.taker t p).1 := by
  have hw : m.word? s = m.word? t := by rw [word?, word?, h.cursor]
  unfold taker
  rw [hw, h.store]
  split
  · split
    · rfl
    · exact firstToAccept_steady hrun h _ _ _
  · rfl

/-- Where one of the parameters applies and accepts the word, one of them takes it. -/
theorem firstToAccept_isSome (hrun : m.run.IsSteady) {ps : List Param} (hq : q ∈ ps) (ha : m.applies s q = true)
    (hacc : m.Accepts q word) (calls : List Scope) : (m.firstToAccept s word ps calls).1.isSome = true := by
  induction ps generalizing calls with
  | nil => cases hq
  | cons r rs ih =>
    rw [firstToAccept]
    rcases List.mem_cons.1 hq with rfl | hq
    · obtain ⟨before, hb⟩ := hacc
      rw [if_pos ha]
      rw [Param.accept?_steady hrun q m.scope word before calls] at hb
      rcases hv : q.accept? m.run m.scope word calls with ⟨_ | v, after⟩
      · rw [hv] at hb
        cases hb
      · rfl
    · split
      · split
        · rfl
        · exact ih hq _
      · exact ih hq _

/-! ## At the word added -/

theorem word?_completing (h : s.cursor = ts.length) : (m.completing ts ts.length).word? s = none := by
  simp [word?, completing, h]

theorem word?_added (h : s.cursor = ts.length) : (m.plain (ts ++ [w])).word? s = some w.text := by
  simp [word?, plain, h]

theorem taker_completing (h : s.cursor = ts.length) (p : Param) :
    (m.completing ts ts.length).taker s p = (none, s.calls) := by
  rw [taker, word?_completing h]

/-- Before the word added the runs try the same words. -/
theorem taker_alike (hrun : m.run.IsSteady) (h : Alike s t) (hlt : s.cursor < ts.length) (p : Param) :
    ((m.completing ts ts.length).taker s p).1 = ((m.plain (ts ++ [w])).taker t p).1 := by
  have hw : (m.completing ts ts.length).word? s = (m.plain (ts ++ [w])).word? s := (word?_append hlt).symm
  have hsame : (m.completing ts ts.length).taker s p = (m.plain (ts ++ [w])).taker s p := by
    refine taker_congr ?_ ?_ hw p <;> rfl
  rw [hsame]
  exact taker_steady (m := m.plain (ts ++ [w])) hrun h p

/-- No word is kept: at the target there is none. -/
theorem keepsWord_completing (s : State) (p : Param) : (m.completing ts ts.length).keepsWord s p = false := by
  rcases hk : (m.completing ts ts.length).keepsWord s p with _ | _
  · rfl
  · simp [keepsWord, atTarget, completing] at hk
    omega

/-! ## The runs together -/

/-- What comes of one step of each in states that are alike. -/
inductive Together (m : Setting) (ts : List Token) (w : Token) (s t : State) : Prop
  /-- The word added is taken. -/
  | taken (x : Taken) : t.cursor = ts.length → (m.plain (ts ++ [w])).Takes t x → Together m ts w s t
  | on (u v : State) : (m.completing ts ts.length).step s = .go u → (m.plain (ts ++ [w])).step t = .go v →
      Alike u v → Together m ts w s t
  /-- All lists are through. -/
  | through : s.frames = [] → Together m ts w s t
  /-- A parameter refuses the word, which the first lacks after the last. -/
  | refused (u v : State) : (m.completing ts ts.length).step s =
        .stop (if s.cursor < ts.length then .illegalParam else .incomplete) u →
      (m.plain (ts ++ [w])).step t = .stop .illegalParam v → Together m ts w s t

/-- Where neither takes the word that it sees both pass the parameter or refuse the word. -/
theorem Alike.together_of_untaken {before after : List Scope} (h : Alike s t) (hle : s.cursor ≤ ts.length)
    (hvs : (m.completing ts ts.length).Visits s f fs p) (hvt : (m.plain (ts ++ [w])).Visits t f fs p)
    (hts : (m.completing ts ts.length).taker s p = (none, before))
    (htt : (m.plain (ts ++ [w])).taker t p = (none, after)) : Together m ts w s t := by
  rcases ho : p.isOptional with _ | _
  · have hword : ((m.plain (ts ++ [w])).word? t).isSome = true := by
      refine word?_isSome_of_lt ?_
      have hcursor := h.cursor
      simp only [plain, List.length_append, List.length_singleton]
      omega
    have hsees : ((m.completing ts ts.length).word? s).isSome = true ↔ s.cursor < ts.length := word?_isSome_iff
    have hstop := hvs.step_eq.trans (visit_refuse hts ho)
    have hstop' := hvt.step_eq.trans (visit_refuse htt ho)
    simp only [hsees] at hstop
    rw [if_pos hword] at hstop'
    exact .refused _ _ hstop hstop'
  · exact .on _ _ (hvs.step_eq.trans (visit_pass hts ho)) (hvt.step_eq.trans (visit_pass htt ho))
      ⟨rfl, h.cursor, h.store⟩

theorem step_alike (hrun : m.run.IsSteady) (h : Alike s t) (hle : s.cursor ≤ ts.length) :
    Together m ts w s t := by
  rcases hf : s.frames with _ | ⟨f, fs⟩
  · exact .through hf
  have hft : t.frames = f :: fs := h.frames ▸ hf
  rcases hp : f.params[f.index]? with _ | p
  · exact .on _ _ (step_leave hf hp) (step_leave hft hp) ⟨rfl, h.cursor, h.store⟩
  rcases ha : m.applies s p with _ | _
  · exact .on _ _ (step_skip hf hp ha) (step_skip hft hp (h.applies p ▸ ha)) ⟨rfl, h.cursor, h.store⟩
  have hvs : (m.completing ts ts.length).Visits s f fs p := ⟨hf, hp, ha⟩
  have hvt : (m.plain (ts ++ [w])).Visits t f fs p := ⟨hft, hp, h.applies p ▸ ha⟩
  rcases htt : (m.plain (ts ++ [w])).taker t p with ⟨taken, after⟩
  by_cases hlt : s.cursor < ts.length
  · have hts := taker_alike (w := w) hrun h hlt p
    rcases htaker : (m.completing ts ts.length).taker s p with ⟨taken', before⟩
    rw [htaker, htt] at hts
    subst hts
    rcases taken' with _ | ⟨node, value⟩
    · exact h.together_of_untaken hle hvs hvt htaker htt
    · refine .on _ _ (hvs.step_eq.trans (visit_take htaker (keepsWord_completing s p)))
        (hvt.step_eq.trans (visit_take htt (keepsWord_of_no_target rfl))) ⟨rfl, ?_, ?_⟩
      · show s.cursor + 1 = t.cursor + 1
        rw [h.cursor]
      · show s.store.record p node value = t.store.record p node value
        rw [h.store]
  · have heq : s.cursor = ts.length := by omega
    rcases taken with _ | ⟨node, value⟩
    · exact h.together_of_untaken hle hvs hvt (taker_completing heq p) htt
    · exact .taken ⟨p, node, value⟩ (h.cursor ▸ heq) ⟨f, fs, after, hvt, htt, keepsWord_of_no_target rfl⟩

/-- Until the word added is taken the plain match goes where the other does. -/
theorem follow (hrun : m.run.IsSteady) (h : Alike s t) (hle : s.cursor ≤ ts.length)
    (hr : (m.completing ts ts.length).Reach s s') :
    (∃ x, (m.plain (ts ++ [w])).TakesAt t ts.length x) ∨
      ∃ t', (m.plain (ts ++ [w])).Reach t t' ∧ Alike s' t' := by
  induction hr with
  | refl => exact .inr ⟨t, .refl t, h⟩
  | @step s' u hr hu ih =>
    rcases ih with htaken | ⟨t', hr', h'⟩
    · exact .inl htaken
    have hle' : s'.cursor ≤ ts.length := hr.cursor_le_length hle
    cases step_alike (w := w) hrun h' hle' with
    | taken x hc hx => exact .inl ⟨x, t', hr', hc, hx⟩
    | on u' v hu' hv halike =>
      rw [hu] at hu'
      cases hu'
      exact .inr ⟨v, .step hr' hv, halike⟩
    | through hf =>
      rw [step_close hf] at hu
      cases hu
    | refused u' v hu' hv =>
      rw [hu] at hu'
      cases hu'

/-- Up to the word added the plain match only goes where the other does. -/
theorem followed (hrun : m.run.IsSteady) (h : Alike s t) (hr : (m.plain (ts ++ [w])).Reach t t')
    (hle : t'.cursor ≤ ts.length) : ∃ s', (m.completing ts ts.length).Reach s s' ∧ Alike s' t' := by
  induction hr with
  | refl => exact ⟨s, .refl s, h⟩
  | @step t' v hr hv ih =>
    have hle' : t'.cursor ≤ ts.length := Nat.le_trans (step_cursor_le hv) hle
    obtain ⟨s', hr', h'⟩ := ih hle'
    cases step_alike (w := w) hrun h' (h'.cursor ▸ hle') with
    | taken x hc hx =>
      obtain ⟨v', hv', hc'⟩ := hx.step
      rw [hv] at hv'
      cases hv'
      omega
    | on u v' hu hv' halike =>
      rw [hv] at hv'
      cases hv'
      exact ⟨u, .step hr' hu, halike⟩
    | through hf =>
      rw [step_close (h'.frames ▸ hf)] at hv
      cases hv
    | refused u v' hu hv' =>
      rw [hv] at hv'
      cases hv'

/-! ## What is offered and what is taken -/

/-- What takes the word added was offered. -/
theorem offered_of_takes (hrun : m.run.IsSteady) (h : Alike s t)
    (hx : (m.plain (ts ++ [w])).TakesAt t ts.length x) : (m.completing ts ts.length).Offered s x.node := by
  obtain ⟨t', hr, hc, f, fs, calls, hv, ht, -⟩ := hx
  obtain ⟨s', hr', h'⟩ := followed hrun h hr (Nat.le_of_eq hc)
  obtain ⟨token, -, hnew, hnode, happlies, -⟩ := taker_spec ht
  have hcursor : s'.cursor = ts.length := h'.cursor.trans hc
  have hv' : (m.completing ts ts.length).Visits s' f fs x.param :=
    ⟨h'.frames.trans hv.frames, hv.stands, (h'.applies x.param).trans hv.applies⟩
  refine ⟨s', f, fs, x.param, hr', hv', by simp [atTarget, completing, hcursor], h'.store ▸ hnew, ?_⟩
  refine List.mem_filter.2 ⟨hnode, ?_⟩
  have happlies' : (m.completing ts ts.length).applies s' x.node = true := (h'.applies x.node).trans happlies
  rw [happlies', word?_completing hcursor]
  rfl

/-- If one of what was offered accepts the word added, then it is taken. -/
theorem takes_of_offered (hrun : m.run.IsSteady) (h : Alike s t) (hle : s.cursor ≤ ts.length)
    (hq : (m.completing ts ts.length).Offered s q) (hacc : m.Accepts q w.text) :
    ∃ x, (m.plain (ts ++ [w])).TakesAt t ts.length x := by
  obtain ⟨s', f, fs, p, hr, hv, htarget, hnew, hoffer⟩ := hq
  have hcursor : s'.cursor = ts.length := by
    simp only [atTarget, completing, beq_iff_eq, Option.some.injEq] at htarget
    exact htarget.symm
  rcases follow hrun h hle hr with htaken | ⟨t', hr', h'⟩
  · exact htaken
  have hc' : t'.cursor = ts.length := h'.cursor ▸ hcursor
  have hv' : (m.plain (ts ++ [w])).Visits t' f fs p :=
    ⟨h'.frames ▸ hv.frames, hv.stands, (h'.applies p).symm.trans hv.applies⟩
  obtain ⟨hmem, happlies⟩ := List.mem_filter.1 hoffer
  have happlies' : (m.plain (ts ++ [w])).applies t' q = true := by
    refine (h'.applies q).symm.trans ?_
    simp only [Bool.and_eq_true] at happlies
    exact happlies.1
  have htaker : (m.plain (ts ++ [w])).taker t' p =
      (m.plain (ts ++ [w])).firstToAccept t' w.text p.choices t'.calls := by
    rw [taker, word?_added hc', ← h'.store, hnew]
    rfl
  have hsome := firstToAccept_isSome (m := m.plain (ts ++ [w])) hrun hmem happlies' hacc t'.calls
  rw [← htaker] at hsome
  rcases ht : (m.plain (ts ++ [w])).taker t' p with ⟨_ | ⟨node, value⟩, calls⟩
  · rw [ht] at hsome
    cases hsome
  · exact ⟨⟨p, node, value⟩, t', hr', hc', f, fs, calls, hv', ht, keepsWord_of_no_target rfl⟩

/-! ## Where the word added is not taken -/

/-- How the match `p` of `ts` and `w` ends, in which no parameter takes `w`, by the end
    `b` of the match of `ts`. -/
structure Overruns (m : Setting) (ts : List Token) (w : Token) (b p : Status × State) : Prop where
  incomplete : b.1 = .incomplete → p.1 = .illegalParam
  leftOver : b.1 = .ok → m.command.args = none → p.1 = .illegalCommand
  /-- The word added is the last of those folded for the parameter for them. -/
  folded : ∀ args, b.1 = .ok → m.command.args = some args → p.1 = .ok ∧ p.2.cursor = ts.length + 1 ∧
    ∃ k before, k ≤ ts.length ∧ p.2.store = before.insert args (fold (ts.drop k ++ [w])) ∧
      b.2.store = if k < ts.length then before.insert args (fold (ts.drop k)) else before
  error : b.1.IsError → p.1 = b.1

theorem overruns_close (hrest : m.takesRest = true) (h : Alike s t) (hle : s.cursor ≤ ts.length) :
    m.Overruns ts w ((m.completing ts ts.length).close s) ((m.plain (ts ++ [w])).close t) := by
  have hlt : t.cursor < (ts ++ [w]).length := by
    rw [← h.cursor, List.length_append]
    exact Nat.lt_succ_of_le hle
  rcases ha : m.command.args with _ | args
  · have hp := close_of_args_eq_none (m := m.plain (ts ++ [w])) hrest ha hlt
    rw [hp]
    refine ⟨fun hb => ?_, fun _ _ => rfl, fun args _ hargs => ?_, fun hb => ?_⟩
    · by_cases hlt' : s.cursor < ts.length
      · rw [close_of_args_eq_none (m := m.completing ts ts.length) hrest ha hlt'] at hb
        cases hb
      · rw [(close_of_no_words (m := m.completing ts ts.length) (Nat.le_of_not_lt hlt')).1] at hb
        cases hb
    · rw [ha] at hargs
      cases hargs
    · rcases hb with hb | hb
      · exact absurd hb close_ne_illegalParam
      · exact hb.symm
  · have hp := close_of_args_eq_some (m := m.plain (ts ++ [w])) hrest ha hlt
    have hb : ((m.completing ts ts.length).close s).1 = .ok ∧ ((m.completing ts ts.length).close s).2.store =
        if s.cursor < ts.length then s.store.insert args (fold (ts.drop s.cursor)) else s.store := by
      by_cases hlt' : s.cursor < ts.length
      · rw [close_of_args_eq_some (m := m.completing ts ts.length) hrest ha hlt', if_pos hlt']
        exact ⟨rfl, rfl⟩
      · obtain ⟨hok, -, hstore⟩ := close_of_no_words (m := m.completing ts ts.length) (Nat.le_of_not_lt hlt')
        rw [if_neg hlt']
        exact ⟨hok, hstore⟩
    rw [hp]
    refine ⟨fun h => ?_, fun _ hargs => ?_, fun args' _ hargs => ?_, fun h => ?_⟩
    · rw [hb.1] at h
      cases h
    · rw [ha] at hargs
      cases hargs
    · rw [ha] at hargs
      cases hargs
      refine ⟨rfl, by simp [plain], s.cursor, s.store, hle, ?_, hb.2⟩
      show t.store.insert args (fold ((ts ++ [w]).drop t.cursor)) = _
      rw [← h.store, ← h.cursor, List.drop_append_of_le_length hle]
    · rw [hb.1] at h
      rcases h with h | h <;> cases h

theorem end_of_not_taken (hrun : m.run.IsSteady) (hrest : m.takesRest = true) (h : Alike s t)
    (hle : s.cursor ≤ ts.length) (hno : ∀ x, ¬ (m.plain (ts ++ [w])).TakesAt t ts.length x) :
    m.Overruns ts w ((m.completing ts ts.length).finish s) ((m.plain (ts ++ [w])).finish t) := by
  obtain ⟨u, hu, hstop⟩ := exists_stop (m.completing ts ts.length) s
  have hle' : u.cursor ≤ ts.length := hu.cursor_le_length hle
  rcases follow (w := w) hrun h hle hu with ⟨x, hx⟩ | ⟨v, hv, h'⟩
  · exact absurd hx (hno x)
  rw [finish_eq_of_reach hu, finish_eq_of_reach hv]
  cases step_alike (w := w) hrun h' hle' with
  | taken x hc hx => exact absurd ⟨v, hv, hc, hx⟩ (hno x)
  | on u' v' hu' _ _ =>
    rw [hstop] at hu'
    cases hu'
  | through hf =>
    rw [finish_of_stop (step_close hf), finish_of_stop (step_close (h'.frames ▸ hf))]
    exact overruns_close hrest h' hle'
  | refused u' v' hu' hv' =>
    rw [finish_of_stop hu', finish_of_stop hv']
    by_cases hlt : u.cursor < ts.length
    · rw [if_pos hlt]
      exact ⟨fun _ => rfl, nofun, nofun, fun _ => rfl⟩
    · rw [if_neg hlt]
      refine ⟨fun _ => rfl, nofun, nofun, fun hb => ?_⟩
      rcases hb with hb | hb <;> cases hb

/-- Completion after the last word offers what a match takes next. For a list of
    parameters and a word `w` after the words `ts`: what takes `w` is a candidate; if a
    candidate accepts `w` then `w` is taken by one, unless the only candidate is the
    parameter for words left over; and where `w` is not taken the match ends by the end
    of the match of `ts`. -/
theorem completion_at_boundary (m : Setting) (cursor : Nat) (store : Store) (ts : List Token) (w : Token)
    (hrun : m.run.IsSteady) (hrest : m.takesRest = true) (hcursor : cursor ≤ ts.length) :
    let first := start m.command.params cursor store
    let b := (m.completing ts ts.length).finish first
    let p := (m.plain (ts ++ [w])).finish first
    (∀ x, (m.plain (ts ++ [w])).TakesAt first ts.length x → b.2.candidates.contains x.node.name = true) ∧
      (∀ e ∈ b.2.candidates.entries,
        (m.command.args = some e.param ∧ ∀ q, ¬ (m.completing ts ts.length).Offered first q) ∨
          (m.Accepts e.param w.text → ∃ x, (m.plain (ts ++ [w])).TakesAt first ts.length x ∧
            b.2.candidates.contains x.node.name = true)) ∧
      ((∀ x, ¬ (m.plain (ts ++ [w])).TakesAt first ts.length x) → m.Overruns ts w b p) := by
  intro first b p
  have h : Alike first first := ⟨rfl, rfl, rfl⟩
  have hoffered : ∀ x, (m.plain (ts ++ [w])).TakesAt first ts.length x →
      b.2.candidates.contains x.node.name = true :=
    fun x hx => (offered_of_takes hrun h hx).contains
  refine ⟨hoffered, fun e he => ?_, end_of_not_taken hrun hrest h hcursor⟩
  rcases mem_candidates he with he | hq | ⟨hargs, -, hnone⟩
  · cases he
  · refine .inr fun hacc => ?_
    obtain ⟨x, hx⟩ := takes_of_offered hrun h hcursor hq hacc
    exact ⟨x, hx, hoffered x hx⟩
  · exact .inl ⟨hargs, hnone⟩

open Matching.Sample in
/-- After `5` the candidate `fast` accepts `fast`, so a candidate takes it. -/
theorem tune_completion_at_boundary :
    ∃ x, (tuning.plain (unquoted ["5"] ++ unquoted ["fast"])).TakesAt (start tune.params 0 .empty) 1 x ∧
      ((tuning.completing (unquoted ["5"]) 1).finish (start tune.params 0 .empty)).2.candidates.contains
        x.node.name = true := by
  have hany : (((tuning.completing (unquoted ["5"]) 1).finish (start tune.params 0 .empty)).2.candidates.entries.any
      fun e => e.name == "fast" && (e.param.accept? tuning.run tuning.scope "fast" []).1.isSome) = true := by
    decide +kernel
  obtain ⟨e, he, hfast⟩ := List.any_eq_true.1 hany
  obtain ⟨hname, hacc⟩ := Bool.and_eq_true_iff.1 hfast
  rcases (completion_at_boundary tuning 0 .empty (unquoted ["5"]) ⟨"fast", false, 0, 4⟩ (fun _ _ _ => rfl) rfl
    (by decide)).2.1 e he with ⟨hargs, -⟩ | htaken
  · have hnote : e.param = { name := "note", type := "KW" } := (Option.some.inj hargs).symm
    have hname' : e.param.name = "fast" := beq_iff_eq.1 hname
    rw [hnote] at hname'
    exact absurd hname' (by decide)
  · exact htaken ⟨[], hacc⟩

end Matching.Setting

end LineMatch
