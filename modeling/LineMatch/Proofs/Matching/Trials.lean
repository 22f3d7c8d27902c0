/-
  LineMatch.Proofs.Matching.Trials — the words a match tries, and the calls it makes.

  A visit tries the word under the cursor on the choices of its parameter, one after the
  other, up to the first that accepts it. `m.trials s` lists what the step at `s` tries,
  `m.trace s` what the whole run from `s` on tries. An executor is called in trials only,
  once in each that comes to it (`m.callIn`), and it is told of the calls made before.

  Proved:
  - `step_calls`, `finish_calls`: the calls made are those of the trials, in their order.
  - `chained_trace`: each trial is made when the calls of those before it have been.
  - `Tries.sublist`: a visit tries each choice once at most, in order.
  - `Tries.last_of_accepts`, `Visits.store`: a trial that accepts the word is the last of
    its visit, and what the last one makes of the word is all that is recorded.
  - `trace_in_order`: the words tried in a run are further and further on.
-/

import LineMatch.Proofs.Matching.Offers

namespace LineMatch

/-- The scope in which an action is run to see what a parameter makes of a word, if that
    takes an action. -/
def Param.call? (p : Param) (s : Scope) (text : String) : Option Scope :=
  if p.admits text then
    (s.session.grammar.type? p.type).bind fun t => t.action?.map fun a => s.checking t a text
  else none

theorem Param.accept?_calls (p : Param) (run : Executor) (s : Scope) (text : String) (calls : List Scope) :
    (p.accept? run s text calls).2 = (p.call? s text).toList ++ calls := by
  rw [accept?, call?]
  split
  · rcases ht : s.session.grammar.type? p.type with _ | t
    · rfl
    · rcases ha : t.action? with _ | a <;> simp [ValueType.judge, ha]
  · rfl

namespace Matching

/-- A word tried on a choice of a parameter. -/
structure Trial where
  state : State
  /-- The parameter visited. -/
  param : Param
  /-- The choice of it. -/
  node : Param
  word : String
  /-- The calls made before, the last first. -/
  before : List Scope

namespace Setting

variable {m : Setting} {s t : State} {f : Frame} {fs : List Frame} {p q : Param} {ps : List Param} {word : String}
  {calls : List Scope} {x : Trial} {xs ys : List Trial}

/-- What the trial makes of the word. -/
def outcome (m : Setting) (x : Trial) : Option String := (x.node.accept? m.run m.scope x.word x.before).1

/-- The scope of the call made in a trial, if one is. -/
def callIn (m : Setting) (x : Trial) : Option Scope := x.node.call? m.scope x.word

/-- The calls made in trials, the last first. -/
def callsIn (m : Setting) (xs : List Trial) : List Scope := (xs.filterMap m.callIn).reverse

/-- The trials on some choices of `p`: on those that apply, up to the first that accepts. -/
def trialsOf (m : Setting) (s : State) (p : Param) (word : String) : List Param → List Scope → List Trial
  | [], _ => []
  | q :: qs, calls =>
    if m.applies s q then
      ⟨s, p, q, word, calls⟩ ::
        match q.accept? m.run m.scope word calls with
        | (some _, _) => []
        | (none, calls) => trialsOf m s p word qs calls
    else trialsOf m s p word qs calls

/-- The trials at a visit of `p`. -/
def trialsFor (m : Setting) (s : State) (p : Param) : List Trial :=
  match m.word? s with
  | some word => if s.store.contains p.name then [] else m.trialsOf s p word p.choices s.calls
  | none => []

/-- The trials of the step at `s`. -/
def trials (m : Setting) (s : State) : List Trial :=
  match s.frames with
  | [] => []
  | f :: _ =>
    match f.params[f.index]? with
    | none => []
    | some p => if m.applies s p then m.trialsFor s p else []

/-- The trials of a run. -/
def trace (m : Setting) (s : State) : List Trial :=
  match _h : m.step s with
  | .stop _ _ => m.trials s
  | .go t => m.trials s ++ trace m t
termination_by s.cost
decreasing_by exact step_cost _h

/-! ## Calls in sequence -/

theorem callsIn_append (m : Setting) (xs ys : List Trial) : m.callsIn (xs ++ ys) = m.callsIn ys ++ m.callsIn xs := by
  simp [callsIn]

theorem callsIn_cons (m : Setting) (x : Trial) (xs : List Trial) :
    m.callsIn (x :: xs) = m.callsIn xs ++ (m.callIn x).toList := by
  rcases h : m.callIn x with _ | call <;> simp [callsIn, h]

/-- Each trial is made when the calls before were those made at first and those of the
    trials before it. -/
def Chained (m : Setting) : List Scope → List Trial → Prop
  | _, [] => True
  | calls, x :: xs => x.before = calls ∧ Chained m ((m.callIn x).toList ++ calls) xs

theorem Chained.append (hx : m.Chained calls xs) (hy : m.Chained (m.callsIn xs ++ calls) ys) :
    m.Chained calls (xs ++ ys) := by
  induction xs generalizing calls with
  | nil => exact hy
  | cons x xs ih =>
    rw [callsIn_cons, List.append_assoc] at hy
    exact ⟨hx.1, ih hx.2 hy⟩

/-! ## The choices of one parameter -/

/-- What `xs`, the trials on some choices of `p`, can be. -/
inductive Tries (m : Setting) (s : State) (p : Param) (word : String) :
    List Param → List Scope → List Trial → Prop
  | nil {calls : List Scope} : Tries m s p word [] calls []
  | skip {q : Param} {qs : List Param} {calls : List Scope} {xs : List Trial} :
      m.applies s q = false → Tries m s p word qs calls xs → Tries m s p word (q :: qs) calls xs
  | accept {q : Param} {qs : List Param} {calls : List Scope} {value : String} :
      m.applies s q = true → m.outcome ⟨s, p, q, word, calls⟩ = some value →
      Tries m s p word (q :: qs) calls [⟨s, p, q, word, calls⟩]
  | refuse {q : Param} {qs : List Param} {calls : List Scope} {xs : List Trial} :
      m.applies s q = true → m.outcome ⟨s, p, q, word, calls⟩ = none →
      Tries m s p word qs ((m.callIn ⟨s, p, q, word, calls⟩).toList ++ calls) xs →
      Tries m s p word (q :: qs) calls (⟨s, p, q, word, calls⟩ :: xs)

theorem tries (m : Setting) (s : State) (p : Param) (word : String) (ps : List Param) (calls : List Scope) :
    m.Tries s p word ps calls (m.trialsOf s p word ps calls) := by
  induction ps generalizing calls with
  | nil => exact .nil
  | cons q qs ih =>
    rw [trialsOf]
    rcases ha : m.applies s q with _ | _
    · exact .skip ha (ih calls)
    have hcalls := q.accept?_calls m.run m.scope word calls
    rw [if_pos rfl]
    rcases hq : q.accept? m.run m.scope word calls with ⟨_ | value, after⟩
    · rw [hq] at hcalls
      refine .refuse ha (congrArg Prod.fst hq) ?_
      have hafter : after = (m.callIn ⟨s, p, q, word, calls⟩).toList ++ calls := hcalls
      rw [← hafter]
      exact ih after
    · exact .accept ha (congrArg Prod.fst hq)

namespace Tries

theorem chained (h : m.Tries s p word ps calls xs) : m.Chained calls xs := by
  induction h with
  | nil => trivial
  | skip _ _ ih => exact ih
  | accept _ _ => exact ⟨rfl, trivial⟩
  | refuse _ _ _ ih => exact ⟨rfl, ih⟩

theorem sublist (h : m.Tries s p word ps calls xs) : (xs.map Trial.node).Sublist ps := by
  induction h with
  | nil => exact .slnil
  | skip _ _ ih => exact ih.cons _
  | accept _ _ => exact (List.nil_sublist _).cons_cons _
  | refuse _ _ _ ih => exact ih.cons_cons _

/-- Each trial is made in the state, for the parameter, with the word, on a choice that
    applies. -/
theorem mem (h : m.Tries s p word ps calls xs) (hx : x ∈ xs) :
    x.state = s ∧ x.param = p ∧ x.word = word ∧ m.applies s x.node = true := by
  induction h with
  | nil => cases hx
  | skip _ _ ih => exact ih hx
  | accept ha _ =>
    cases List.mem_singleton.1 hx
    exact ⟨rfl, rfl, rfl, ha⟩
  | refuse ha _ _ ih =>
    rcases List.mem_cons.1 hx with rfl | hx
    · exact ⟨rfl, rfl, rfl, ha⟩
    · exact ih hx

/-- A trial that accepts is the last. -/
theorem last_of_accepts (h : m.Tries s p word ps calls xs) (hx : x ∈ xs) (hout : (m.outcome x).isSome = true) :
    xs.getLast? = some x := by
  induction h with
  | nil => cases hx
  | skip _ _ ih => exact ih hx
  | accept _ _ =>
    cases List.mem_singleton.1 hx
    rfl
  | refuse _ hnone _ ih =>
    rcases List.mem_cons.1 hx with rfl | hx
    · rw [hnone] at hout
      cases hout
    · rw [List.getLast?_cons, ih hx]
      rfl

end Tries

/-- What trials in sequence come to: what the last of them does. -/
def lastOutcome (m : Setting) (xs : List Trial) : Option (Param × String) :=
  xs.getLast?.bind fun x => (m.outcome x).map fun value => (x.node, value)

theorem lastOutcome_cons (h : m.outcome x = none) (xs : List Trial) :
    m.lastOutcome (x :: xs) = m.lastOutcome xs := by
  cases xs with
  | nil => simp [lastOutcome, h]
  | cons y ys => simp [lastOutcome, List.getLast?_cons]

/-- Where no choice accepts the word each that applies was tried and refused it. -/
theorem Tries.exists_refused (h : m.Tries s p word ps calls xs) (hnone : m.lastOutcome xs = none) (hq : q ∈ ps)
    (ha : m.applies s q = true) : ∃ x ∈ xs, x.node = q ∧ m.outcome x = none := by
  induction h with
  | nil => cases hq
  | skip hno _ ih =>
    rcases List.mem_cons.1 hq with rfl | hq
    · rw [hno] at ha
      cases ha
    · exact ih hnone hq
  | accept _ hout =>
    rw [lastOutcome, List.getLast?_singleton, Option.bind_some, hout] at hnone
    cases hnone
  | refuse _ hout _ ih =>
    rw [lastOutcome_cons hout] at hnone
    rcases List.mem_cons.1 hq with rfl | hq
    · exact ⟨_, List.mem_cons_self, rfl, hout⟩
    · obtain ⟨x, hx, hrefused⟩ := ih hnone hq
      exact ⟨x, List.mem_cons_of_mem _ hx, hrefused⟩

/-- The first choice to accept the word is that of the last trial, and the calls made are
    those of the trials. -/
theorem Tries.firstToAccept_eq (h : m.Tries s p word ps calls xs) :
    m.firstToAccept s word ps calls = (m.lastOutcome xs, m.callsIn xs ++ calls) := by
  induction h with
  | nil => rfl
  | skip ha _ ih =>
    rw [firstToAccept, ha]
    exact ih
  | @accept q qs calls value ha hout =>
    rw [firstToAccept, if_pos ha, callsIn_cons]
    have hcalls := q.accept?_calls m.run m.scope word calls
    rcases hq : q.accept? m.run m.scope word calls with ⟨o, after⟩
    have ho : o = some value := (congrArg Prod.fst hq).symm.trans hout
    rw [hq] at hcalls
    subst ho
    refine Prod.ext ?_ hcalls
    simp [lastOutcome, hout]
  | @refuse q qs calls xs ha hout _ ih =>
    rw [firstToAccept, if_pos ha, callsIn_cons, lastOutcome_cons hout, List.append_assoc]
    have hcalls := q.accept?_calls m.run m.scope word calls
    rcases hq : q.accept? m.run m.scope word calls with ⟨o, after⟩
    have ho : o = none := (congrArg Prod.fst hq).symm.trans hout
    rw [hq] at hcalls
    subst ho
    have hafter : after = (m.callIn ⟨s, p, q, word, calls⟩).toList ++ calls := hcalls
    rw [← hafter] at ih ⊢
    exact ih

/-! ## One step -/

theorem taker_eq (m : Setting) (s : State) (p : Param) :
    m.taker s p = (m.lastOutcome (m.trialsFor s p), m.callsIn (m.trialsFor s p) ++ s.calls) := by
  rcases hw : m.word? s with _ | word
  · simp only [taker, trialsFor, hw]
    rfl
  rcases hn : s.store.contains p.name with _ | _
  · simp only [taker, trialsFor, hw, hn]
    exact (m.tries s p word p.choices s.calls).firstToAccept_eq
  · simp only [taker, trialsFor, hw, hn]
    rfl

theorem Visits.trials (h : m.Visits s f fs p) : m.trials s = m.trialsFor s p := by
  simp [Setting.trials, h.frames, h.stands, h.applies]

theorem trials_eq_nil (h : ∀ f fs p, ¬ m.Visits s f fs p) : m.trials s = [] := by
  rcases hf : s.frames with _ | ⟨f, fs⟩
  · simp [trials, hf]
  rcases hp : f.params[f.index]? with _ | p
  · simp [trials, hf, hp]
  rcases ha : m.applies s p with _ | _
  · simp [trials, hf, hp, ha]
  · exact absurd ⟨hf, hp, ha⟩ (h f fs p)

/-- When a word is tried: the parameter stands under the index and applies, its name is
    not recorded, and the choice applies too. -/
structure Tried (m : Setting) (x : Trial) : Prop where
  visits : ∃ f fs, m.Visits x.state f fs x.param
  word : m.word? x.state = some x.word
  unrecorded : x.state.store.contains x.param.name = false
  choice : x.node ∈ x.param.choices
  applies : m.applies x.state x.node = true

/-- The trials of a visit are made for its parameter, one on each choice at most. -/
theorem Visits.tries (h : m.Visits s f fs p) : m.trials s = [] ∨ ∃ word, m.word? s = some word ∧
    s.store.contains p.name = false ∧ m.Tries s p word p.choices s.calls (m.trials s) := by
  rw [h.trials, trialsFor]
  rcases hw : m.word? s with _ | word
  · exact .inl rfl
  rcases hn : s.store.contains p.name with _ | _
  · exact .inr ⟨word, rfl, rfl, m.tries s p word p.choices s.calls⟩
  · exact .inl rfl

theorem visits_of_mem_trials (h : x ∈ m.trials s) : ∃ f fs p, m.Visits s f fs p := by
  by_cases hv : ∃ f fs p, m.Visits s f fs p
  · exact hv
  · rw [trials_eq_nil fun f fs p hp => hv ⟨f, fs, p, hp⟩] at h
    cases h

theorem mem_trials (h : x ∈ m.trials s) : x.state = s ∧ m.Tried x := by
  obtain ⟨f, fs, p, hv⟩ := visits_of_mem_trials h
  rcases hv.tries with hnil | ⟨word, hw, hn, htries⟩
  · rw [hnil] at h
    cases h
  obtain ⟨rfl, rfl, rfl, ha⟩ := htries.mem h
  exact ⟨rfl, ⟨f, fs, hv⟩, hw, hn, htries.sublist.mem (List.mem_map_of_mem h), ha⟩

theorem close_calls (m : Setting) (s : State) : (m.close s).2.calls = s.calls := by
  unfold close
  split
  · rfl
  · rfl
  · dsimp only
    split <;> rfl

theorem Visits.step_calls (h : m.Visits s f fs p) : (m.step s).state.calls = (m.taker s p).2 := by
  rw [h.step_eq, visit]
  split
  · next ht => split <;> rw [ht] <;> rfl
  · next ht => split <;> rw [ht] <;> rfl

/-- The calls made in a step are those of its trials. -/
theorem step_calls (m : Setting) (s : State) : (m.step s).state.calls = m.callsIn (m.trials s) ++ s.calls := by
  by_cases hv : ∃ f fs p, m.Visits s f fs p
  · obtain ⟨f, fs, p, hv⟩ := hv
    rw [hv.step_calls, hv.trials, taker_eq]
  have hno : ∀ f fs p, ¬ m.Visits s f fs p := fun f fs p h => hv ⟨f, fs, p, h⟩
  rw [trials_eq_nil hno]
  have hmove := m.move s
  generalize m.step s = next at hmove ⊢
  cases hmove with
  | close _ => exact close_calls m s
  | leave _ _ => rfl
  | skip _ _ _ => rfl
  | take hv _ _ => exact absurd hv (hno _ _ _)
  | keep hv _ _ => exact absurd hv (hno _ _ _)
  | pass hv _ _ => exact absurd hv (hno _ _ _)
  | refuse hv _ _ => exact absurd hv (hno _ _ _)

/-- What a visit records is what its last trial makes of the word. -/
theorem Visits.store (h : m.Visits s f fs p) : (m.step s).state.store =
    match m.lastOutcome (m.trials s) with
    | some (node, value) => s.store.record p node value
    | none => s.store := by
  rw [h.trials, h.step_eq, visit, taker_eq]
  split
  · next ho =>
    rw [(Prod.mk.inj ho).1]
    split <;> rfl
  · next ho =>
    rw [(Prod.mk.inj ho).1]
    split <;> rfl

theorem chained_trials (m : Setting) (s : State) : m.Chained s.calls (m.trials s) := by
  by_cases hv : ∃ f fs p, m.Visits s f fs p
  · obtain ⟨f, fs, p, hv⟩ := hv
    rcases hv.tries with hnil | ⟨word, -, -, htries⟩
    · rw [hnil]
      trivial
    · exact htries.chained
  · rw [trials_eq_nil fun f fs p h => hv ⟨f, fs, p, h⟩]
    trivial

/-! ## A run -/

theorem trace_of_stop {status : Status} (h : m.step s = .stop status t) : m.trace s = m.trials s := by
  rw [trace]
  split
  · rfl
  · next h' =>
    rw [h] at h'
    cases h'

theorem trace_of_go (h : m.step s = .go t) : m.trace s = m.trials s ++ m.trace t := by
  rw [trace]
  split
  · next h' =>
    rw [h] at h'
    cases h'
  · next h' =>
    rw [h] at h'
    cases h'
    rfl

/-- The calls made in a run are those of its trials. -/
theorem finish_calls (m : Setting) (s : State) : (m.finish s).2.calls = m.callsIn (m.trace s) ++ s.calls := by
  induction s using run_induction (m := m) with
  | stop s status t hs =>
    rw [finish_of_stop hs, trace_of_stop hs, ← step_calls, hs]
    rfl
  | go s t hs ih =>
    have hcalls := step_calls m s
    rw [hs] at hcalls
    rw [finish_of_go hs, trace_of_go hs, ih, callsIn_append, List.append_assoc, ← hcalls]
    rfl

theorem chained_trace (m : Setting) (s : State) : m.Chained s.calls (m.trace s) := by
  induction s using run_induction (m := m) with
  | stop s status t hs =>
    rw [trace_of_stop hs]
    exact chained_trials m s
  | go s t hs ih =>
    have hcalls := step_calls m s
    rw [hs] at hcalls
    rw [trace_of_go hs]
    refine (chained_trials m s).append ?_
    rw [← hcalls]
    exact ih

theorem mem_trace (h : x ∈ m.trace s) : m.Reach s x.state ∧ x ∈ m.trials x.state := by
  induction s using run_induction (m := m) with
  | stop s status t hs =>
    rw [trace_of_stop hs] at h
    obtain ⟨rfl, -⟩ := mem_trials h
    exact ⟨.refl _, h⟩
  | go s t hs ih =>
    rw [trace_of_go hs] at h
    rcases List.mem_append.1 h with h | h
    · obtain ⟨rfl, -⟩ := mem_trials h
      exact ⟨.refl _, h⟩
    · exact ⟨.head hs (ih h).1, (ih h).2⟩

/-- A run tries words further and further on. -/
theorem trace_in_order (m : Setting) (s : State) :
    (m.trace s).Pairwise fun x y => x.state.cursor ≤ y.state.cursor := by
  have hstep : ∀ s, (m.trials s).Pairwise fun x y => x.state.cursor ≤ y.state.cursor := by
    intro s
    refine List.pairwise_iff_forall_sublist.2 fun {x y} hxy => ?_
    have hx := (mem_trials (hxy.mem List.mem_cons_self)).1
    have hy := (mem_trials (hxy.mem (List.mem_cons_of_mem _ List.mem_cons_self))).1
    exact Nat.le_of_eq (congrArg State.cursor (hx.trans hy.symm))
  induction s using run_induction (m := m) with
  | stop s status t hs =>
    rw [trace_of_stop hs]
    exact hstep s
  | go s t hs ih =>
    rw [trace_of_go hs]
    refine List.pairwise_append.2 ⟨hstep s, ih, fun x hx y hy => ?_⟩
    rw [(mem_trials hx).1]
    exact (Reach.head hs (mem_trace hy).1).cursor_le

end Setting

end Matching

end LineMatch
