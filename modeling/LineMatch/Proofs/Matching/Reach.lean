/-
  LineMatch.Proofs.Matching.Reach — the states of a run.

  `m.Reach s t`: visits lead from `s` to `t`. `Move` lists what one step can do, with the
  conditions under which it does it; `move` says that a step is one of these, and what a
  run keeps is shown by cases on it.

  Proved:
  - `finish_eq_of_reach`, `exists_stop`: a run ends where a state it reaches stops.
  - `Reach.keeps`: what every step keeps, a run keeps.
  - `Reach.cursor_le`, `Reach.cursor_le_length`: words are only left behind, and never
    more of them than there are.
  - `Reach.store_grows`: what is recorded stays.
  - `taker_spec`: what takes a word is a choice of the parameter visited, which has not
    been recorded, and accepts the word as the value.
  - `Reach.takesAt`, `TakesAt.unique`: a word left behind was taken, once.
-/

import LineMatch.Matching.Run

namespace LineMatch.Matching

/-- A word taken: for which parameter of a list, by which of its choices, as what value. -/
structure Taken where
  param : Param
  node : Param
  value : String

theorem Frame.take_params (f : Frame) (p : Param) : (f.take p).params = f.params := by
  unfold Frame.take
  split <;> rfl

/-- A list goes on at its floor once it took a word. -/
theorem Frame.take_settled (f : Frame) (p : Param) : (f.take p).index = (f.take p).floor := by
  unfold Frame.take
  split <;> rfl

namespace Setting

variable {m : Setting} {s t u : State} {f : Frame} {fs : List Frame} {p node : Param}
  {value : String} {calls : List Scope} {x y : Taken} {i : Nat}

/-- Where something is left of a list its first is under the index. -/
theorem getElem?_of_drop {α : Type} {a : α} {xs rest : List α} (h : xs.drop i = a :: rest) : xs[i]? = some a := by
  rw [← List.head?_drop, h]
  rfl

/-! ## Runs -/

inductive Reach (m : Setting) : State → State → Prop
  | refl (s : State) : Reach m s s
  | step {s t u : State} : Reach m s t → m.step t = .go u → Reach m s u

theorem Reach.trans (h : m.Reach s t) (h' : m.Reach t u) : m.Reach s u := by
  induction h' with
  | refl => exact h
  | step _ hu ih => exact .step ih hu

theorem Reach.head (h : m.step s = .go t) (h' : m.Reach t u) : m.Reach s u :=
  (Reach.step (.refl s) h).trans h'

/-- What every step keeps, a run keeps. -/
theorem Reach.keeps {P : State → Prop} (step : ∀ t u, P t → m.step t = .go u → P u) (h : m.Reach s t)
    (hs : P s) : P t := by
  induction h with
  | refl => exact hs
  | step _ hu ih => exact step _ _ ih hu

theorem finish_of_stop {status : Status} (h : m.step s = .stop status t) : m.finish s = (status, t) := by
  rw [finish]
  split
  · next h' => rw [h] at h'; cases h'; rfl
  · next h' => rw [h] at h'; cases h'

theorem finish_of_go (h : m.step s = .go t) : m.finish s = m.finish t := by
  rw [finish]
  split
  · next h' => rw [h] at h'; cases h'
  · next h' => rw [h] at h'; cases h'; rfl

theorem finish_eq_of_reach (h : m.Reach s t) : m.finish s = m.finish t := by
  induction h with
  | refl => rfl
  | step _ hu ih => exact ih.trans (finish_of_go hu)

/-- To show something of every state it is enough to show it of those that stop, and of
    those whose next state has it: each step lowers the cost. -/
theorem run_induction {P : State → Prop} (stop : ∀ s status t, m.step s = .stop status t → P s)
    (go : ∀ s t, m.step s = .go t → P t → P s) (s : State) : P s := by
  cases h : m.step s with
  | stop status t => exact stop s status t h
  | go t => exact go s t h (run_induction stop go t)
termination_by s.cost
decreasing_by exact step_cost h

/-- A run ends where a state it reaches stops. -/
theorem exists_stop (m : Setting) (s : State) :
    ∃ t, m.Reach s t ∧ m.step t = .stop (m.finish s).1 (m.finish s).2 := by
  induction s using run_induction (m := m) with
  | stop s status t h => exact ⟨s, .refl s, by rw [finish_of_stop h]; exact h⟩
  | go s t h ih =>
    obtain ⟨u, hu, hstop⟩ := ih
    exact ⟨u, .head h hu, by rw [finish_of_go h]; exact hstop⟩

theorem Reach.cases_head (h : m.Reach s t) : s = t ∨ ∃ u, m.step s = .go u ∧ m.Reach u t := by
  induction h with
  | refl => exact .inl rfl
  | step _ hu ih =>
    rcases ih with rfl | ⟨v, hv, hr⟩
    · exact .inr ⟨_, hu, .refl _⟩
    · exact .inr ⟨v, hv, .step hr hu⟩

/-- A state reached is the one at hand or comes after the next. -/
theorem Reach.next (h : m.Reach s t) (hs : m.step s = .go u) : s = t ∨ m.Reach u t := by
  rcases h.cases_head with rfl | ⟨v, hv, hr⟩
  · exact .inl rfl
  · rw [hs] at hv
    cases hv
    exact .inr hr

theorem Reach.eq_of_stop {status : Status} (h : m.Reach s t) (hs : m.step s = .stop status u) : s = t := by
  rcases h.cases_head with rfl | ⟨v, hv, -⟩
  · rfl
  · rw [hs] at hv
    cases hv

/-- Of two states that a run reaches one comes after the other. -/
theorem Reach.linear (h : m.Reach s t) (h' : m.Reach s u) : m.Reach t u ∨ m.Reach u t := by
  induction h with
  | refl => exact .inl h'
  | step _ hu ih =>
    rcases ih with ih | ih
    · rcases ih.cases_head with rfl | ⟨v, hv, hr⟩
      · exact .inr (.step (.refl _) hu)
      · rw [hu] at hv
        cases hv
        exact .inl hr
    · exact .inr (.step ih hu)

/-- The state `n` steps on, or where the match stops. -/
def after (m : Setting) : Nat → State → State
  | 0, s => s
  | n + 1, s =>
    match m.step s with
    | .go t => m.after n t
    | .stop _ _ => s

theorem reach_after (m : Setting) (n : Nat) (s : State) : m.Reach s (m.after n s) := by
  induction n generalizing s with
  | zero => exact .refl s
  | succ n ih =>
    rw [after]
    split
    · next t ht => exact .head ht (ih t)
    · exact .refl s

theorem Reach.cost_le (h : m.Reach s t) : t.cost ≤ s.cost :=
  h.keeps (P := fun t => t.cost ≤ s.cost) (fun _ _ hle hu => Nat.le_trans (Nat.le_of_lt (step_cost hu)) hle)
    (Nat.le_refl _)

/-! ## Steps -/

/-- `p` stands under the index of the innermost list, and applies. -/
structure Visits (m : Setting) (s : State) (f : Frame) (fs : List Frame) (p : Param) : Prop where
  frames : s.frames = f :: fs
  stands : f.params[f.index]? = some p
  applies : m.applies s p = true

/-- A parameter without a test applies everywhere. -/
theorem applies_of_untested (s : State) (h : p.test = none) : m.applies s p = true := by
  simp [applies, Condition.applies, h]

/-- What one step can do. -/
inductive Move (m : Setting) (s : State) : Next → Prop
  /-- All lists are through. -/
  | close : s.frames = [] → Move m s (.stop (m.close s).1 (m.close s).2)
  /-- The innermost list is through. -/
  | leave {f : Frame} {fs : List Frame} : s.frames = f :: fs → f.params[f.index]? = none →
      Move m s (.go { s with frames := fs })
  | skip {f : Frame} {fs : List Frame} {p : Param} : s.frames = f :: fs → f.params[f.index]? = some p →
      m.applies s p = false → Move m s (.go { s with frames := f.pass :: fs })
  | take {f : Frame} {fs : List Frame} {p node : Param} {value : String} {calls : List Scope} :
      m.Visits s f fs p → m.taker s p = (some (node, value), calls) → m.keepsWord s p = false →
      Move m s (.go ⟨⟨node.params, 0, 0⟩ :: f.take p :: fs, s.cursor + 1, s.store.record p node value,
        m.offer s p, calls⟩)
  /-- The word taken stays under the cursor. -/
  | keep {f : Frame} {fs : List Frame} {p node : Param} {value : String} {calls : List Scope} :
      m.Visits s f fs p → m.taker s p = (some (node, value), calls) → m.keepsWord s p = true →
      Move m s (.go ⟨f.take p :: fs, s.cursor, s.store.record p node value, m.offer s p, calls⟩)
  | pass {f : Frame} {fs : List Frame} {p : Param} {calls : List Scope} :
      m.Visits s f fs p → m.taker s p = (none, calls) → p.isOptional = true →
      Move m s (.go ⟨f.pass :: fs, s.cursor, s.store, m.offer s p, calls⟩)
  | refuse {f : Frame} {fs : List Frame} {p : Param} {calls : List Scope} :
      m.Visits s f fs p → m.taker s p = (none, calls) → p.isOptional = false →
      Move m s (.stop (if (m.word? s).isSome then .illegalParam else .incomplete)
        ⟨f :: fs, s.cursor, s.store, m.offer s p, calls⟩)

theorem step_close (h : s.frames = []) : m.step s = .stop (m.close s).1 (m.close s).2 := by
  simp [step, h]

theorem step_leave (h : s.frames = f :: fs) (hp : f.params[f.index]? = none) :
    m.step s = .go { s with frames := fs } := by
  simp [step, h, hp]

theorem step_skip (h : s.frames = f :: fs) (hp : f.params[f.index]? = some p) (ha : m.applies s p = false) :
    m.step s = .go { s with frames := f.pass :: fs } := by
  simp [step, h, hp, ha]

theorem Visits.step_eq (h : m.Visits s f fs p) : m.step s = m.visit s f fs p := by
  simp [step, h.frames, h.stands, h.applies]

theorem visit_take (ht : m.taker s p = (some (node, value), calls)) (hk : m.keepsWord s p = false) :
    m.visit s f fs p = .go ⟨⟨node.params, 0, 0⟩ :: f.take p :: fs, s.cursor + 1,
      s.store.record p node value, m.offer s p, calls⟩ := by
  simp [visit, ht, hk]

theorem visit_keep (ht : m.taker s p = (some (node, value), calls)) (hk : m.keepsWord s p = true) :
    m.visit s f fs p = .go ⟨f.take p :: fs, s.cursor, s.store.record p node value, m.offer s p, calls⟩ := by
  simp [visit, ht, hk]

theorem visit_pass (ht : m.taker s p = (none, calls)) (ho : p.isOptional = true) :
    m.visit s f fs p = .go ⟨f.pass :: fs, s.cursor, s.store, m.offer s p, calls⟩ := by
  simp [visit, ht, ho]

theorem visit_refuse (ht : m.taker s p = (none, calls)) (ho : p.isOptional = false) :
    m.visit s f fs p = .stop (if (m.word? s).isSome then .illegalParam else .incomplete)
      ⟨f :: fs, s.cursor, s.store, m.offer s p, calls⟩ := by
  simp [visit, ht, ho]

theorem move (m : Setting) (s : State) : Move m s (m.step s) := by
  rcases hf : s.frames with _ | ⟨f, fs⟩
  · rw [step_close hf]
    exact .close hf
  rcases hp : f.params[f.index]? with _ | p
  · rw [step_leave hf hp]
    exact .leave hf hp
  rcases ha : m.applies s p with _ | _
  · rw [step_skip hf hp ha]
    exact .skip hf hp ha
  have hv : m.Visits s f fs p := ⟨hf, hp, ha⟩
  rw [hv.step_eq]
  rcases ht : m.taker s p with ⟨_ | ⟨node, value⟩, calls⟩
  · rcases ho : p.isOptional with _ | _
    · rw [visit_refuse ht ho]
      exact .refuse hv ht ho
    · rw [visit_pass ht ho]
      exact .pass hv ht ho
  · rcases hk : m.keepsWord s p with _ | _
    · rw [visit_take ht hk]
      exact .take hv ht hk
    · rw [visit_keep ht hk]
      exact .keep hv ht hk

theorem move_go (h : m.step s = .go t) : Move m s (.go t) := h ▸ m.move s

theorem move_stop {status : Status} (h : m.step s = .stop status t) : Move m s (.stop status t) :=
  h ▸ m.move s

/-! ## Words -/

theorem word?_eq_some {word : String} (h : m.word? s = some word) :
    ∃ token, m.words[s.cursor]? = some token ∧ token.text = word :=
  Option.map_eq_some_iff.1 h

theorem word?_of_getElem? {token : Token} (h : m.words[s.cursor]? = some token) : m.word? s = some token.text :=
  congrArg (Option.map Token.text) h

theorem word?_isSome_iff : (m.word? s).isSome = true ↔ s.cursor < m.words.length := by
  simp [word?]

theorem lt_of_word?_isSome (h : (m.word? s).isSome = true) : s.cursor < m.words.length := word?_isSome_iff.1 h

theorem word?_isSome_of_lt (h : s.cursor < m.words.length) : (m.word? s).isSome = true := word?_isSome_iff.2 h

/-- What accepts the word is one of the choices tried; it applies and accepts. -/
theorem firstToAccept_spec {word : String} {ps : List Param} {calls : List Scope}
    (h : (m.firstToAccept s word ps calls).1 = some (node, value)) :
    node ∈ ps ∧ m.applies s node = true ∧
      ∃ before, (node.accept? m.run m.scope word before).1 = some value := by
  induction ps generalizing calls with
  | nil => cases h
  | cons q qs ih =>
    rw [firstToAccept] at h
    split at h
    · next ha =>
      split at h
      · next v after hq =>
        cases h
        exact ⟨List.mem_cons_self, ha, calls, congrArg Prod.fst hq⟩
      · obtain ⟨hmem, hrest⟩ := ih h
        exact ⟨List.mem_cons_of_mem _ hmem, hrest⟩
    · obtain ⟨hmem, hrest⟩ := ih h
      exact ⟨List.mem_cons_of_mem _ hmem, hrest⟩

/-- What takes a word is a choice of a parameter that has not been recorded; it applies
    and accepts the word under the cursor. -/
theorem taker_spec (h : m.taker s p = (some (node, value), calls)) :
    ∃ token, m.words[s.cursor]? = some token ∧ s.store.contains p.name = false ∧ node ∈ p.choices ∧
      m.applies s node = true ∧
      ∃ before, (node.accept? m.run m.scope token.text before).1 = some value := by
  obtain ⟨hmem, hnew⟩ := taker_some h
  rw [taker] at h
  split at h
  · next word hw =>
    rw [hnew] at h
    obtain ⟨token, ht, rfl⟩ := word?_eq_some hw
    obtain ⟨-, ha, hb⟩ := firstToAccept_spec (congrArg Prod.fst h)
    exact ⟨token, ht, hnew, hmem, ha, hb⟩
  · cases h

theorem cursor_lt_of_taker (h : m.taker s p = (some (node, value), calls)) : s.cursor < m.words.length := by
  obtain ⟨token, ht, -⟩ := taker_spec h
  exact (List.getElem?_eq_some_iff.1 ht).1

/-! ## Closing -/

theorem close_of_args_eq_none (hr : m.takesRest = true) (ha : m.command.args = none)
    (hlt : s.cursor < m.words.length) : m.close s = (.illegalCommand, s) := by
  simp only [close, hr, ha, hlt, if_true]

/-- Words left over are folded for the parameter that takes them. -/
theorem close_of_args_eq_some {args : Param} (hr : m.takesRest = true) (ha : m.command.args = some args)
    (hlt : s.cursor < m.words.length) :
    m.close s = (.ok, { s with
      candidates := m.offerRest s args
      cursor := m.words.length
      store := s.store.insert args (fold (m.words.drop s.cursor)) }) := by
  simp only [close, hr, ha, hlt, if_true]

theorem close_of_no_words (hle : m.words.length ≤ s.cursor) :
    (m.close s).1 = .ok ∧ (m.close s).2.cursor = s.cursor ∧ (m.close s).2.store = s.store := by
  have hlt : ¬ s.cursor < m.words.length := by omega
  unfold close
  split
  · exact ⟨rfl, rfl, rfl⟩
  · exact ⟨if_neg hlt, rfl, rfl⟩
  · rw [if_neg hlt]
    exact ⟨rfl, rfl, rfl⟩

/-- Where all words are to be taken, a match that ends well at the end of all lists
    leaves every word behind; those left over are folded. -/
theorem close_of_ok (hr : m.takesRest = true) (hle : s.cursor ≤ m.words.length) (hok : (m.close s).1 = .ok) :
    (m.close s).2.cursor = m.words.length ∧
      ((s.cursor = m.words.length ∧ (m.close s).2.store = s.store) ∨
        (s.cursor < m.words.length ∧ ∃ args, m.command.args = some args ∧
          (m.close s).2.store = s.store.insert args (fold (m.words.drop s.cursor)))) := by
  by_cases hlt : s.cursor < m.words.length
  · rcases ha : m.command.args with _ | args
    · rw [close_of_args_eq_none hr ha hlt] at hok
      cases hok
    · rw [close_of_args_eq_some hr ha hlt]
      exact ⟨rfl, .inr ⟨hlt, args, rfl, rfl⟩⟩
  · obtain ⟨-, hcursor, hstore⟩ := close_of_no_words (Nat.le_of_not_lt hlt)
    have heq : s.cursor = m.words.length := by omega
    exact ⟨hcursor.trans heq, .inl ⟨heq, hstore⟩⟩

theorem close_cursor_le_length (h : s.cursor ≤ m.words.length) : (m.close s).2.cursor ≤ m.words.length := by
  unfold close
  split
  · exact h
  · exact h
  · dsimp only
    split
    · exact Nat.le_refl _
    · exact h

/-! ## Settings that make the same step -/

/-- The match on the words `ts`, without candidates. -/
def plain (m : Setting) (ts : List Token) : Setting := { m with words := ts, target := none }

/-- The match on the words `ts` with the candidates for the place `target` among them. -/
def completing (m : Setting) (ts : List Token) (target : Nat) : Setting :=
  { m with words := ts, target := some target }

theorem keepsWord_of_no_target (h : m.target = none) : m.keepsWord s p = false := by
  simp [keepsWord, atTarget, h]

section

variable {m' : Setting} (hrun : m.run = m'.run) (hscope : m.scope = m'.scope)
include hrun hscope

theorem firstToAccept_congr (s : State) (word : String) (ps : List Param) (calls : List Scope) :
    m.firstToAccept s word ps calls = m'.firstToAccept s word ps calls := by
  induction ps generalizing calls with
  | nil => rfl
  | cons q qs ih =>
    rw [firstToAccept, firstToAccept, applies, applies, hrun, hscope]
    simp only [ih]

theorem taker_congr (hword : m.word? s = m'.word? s) (p : Param) : m.taker s p = m'.taker s p := by
  simp only [taker, hword, firstToAccept_congr hrun hscope]

/-- Settings that see the same word and the same target at a state make the same step
    there, as long as a list is left. -/
theorem step_congr (hword : m.word? s = m'.word? s) (htarget : m.atTarget s = m'.atTarget s)
    (hkeep : ∀ p, m.keepsWord s p = m'.keepsWord s p) (hf : s.frames ≠ []) : m.step s = m'.step s := by
  rcases hs : s.frames with _ | ⟨f, fs⟩
  · exact absurd hs hf
  have happlies : ∀ p, m.applies s p = m'.applies s p := fun p => by simp only [applies, hscope]
  have hoffer : ∀ p, m.offer s p = m'.offer s p := fun p => by
    simp only [offer, offers, htarget, hword, happlies]
  have hvisit : ∀ p, m.visit s f fs p = m'.visit s f fs p := fun p => by
    simp only [visit, taker_congr hrun hscope hword, hoffer, hkeep, hword]
  simp only [step, hs, happlies, hvisit]

end

/-! ## What a run keeps -/

theorem step_cursor_le (h : m.step s = .go t) : s.cursor ≤ t.cursor := by
  cases move_go h with
  | take _ _ _ => exact Nat.le_succ _
  | _ => exact Nat.le_refl _

/-- Words are only left behind. -/
theorem Reach.cursor_le (h : m.Reach s t) : s.cursor ≤ t.cursor :=
  h.keeps (P := fun t => s.cursor ≤ t.cursor) (fun _ _ hle hu => Nat.le_trans hle (step_cursor_le hu))
    (Nat.le_refl _)

theorem step_cursor_le_length (h : m.step s = .go t) (hs : s.cursor ≤ m.words.length) :
    t.cursor ≤ m.words.length := by
  cases move_go h with
  | take _ ht _ => exact cursor_lt_of_taker ht
  | _ => exact hs

theorem Reach.cursor_le_length (h : m.Reach s t) (hs : s.cursor ≤ m.words.length) :
    t.cursor ≤ m.words.length :=
  h.keeps (P := fun t => t.cursor ≤ m.words.length) (fun _ _ hle hu => step_cursor_le_length hu hle) hs

theorem finish_cursor_le_length (h : s.cursor ≤ m.words.length) : (m.finish s).2.cursor ≤ m.words.length := by
  obtain ⟨t, hr, hstop⟩ := exists_stop m s
  have ht : t.cursor ≤ m.words.length := hr.cursor_le_length h
  rcases hfinish : m.finish s with ⟨status, u⟩
  rw [hfinish] at hstop
  cases move_stop hstop with
  | close _ => exact close_cursor_le_length ht
  | refuse _ _ _ => exact ht

theorem frames_of_stop {status : Status} (h : m.step s = .stop status t)
    (hstatus : status = .ok ∨ status = .illegalCommand) : s.frames = [] := by
  cases move_stop h with
  | close hf => exact hf
  | refuse _ _ _ =>
    rcases hstatus with hstatus | hstatus <;> split at hstatus <;> cases hstatus

/-- A match ends well, or leaves words over, only where all lists are through. -/
theorem exists_close (hstatus : (m.finish s).1 = .ok ∨ (m.finish s).1 = .illegalCommand) :
    ∃ t, m.Reach s t ∧ t.frames = [] ∧ m.finish s = m.close t := by
  obtain ⟨t, hr, hstop⟩ := exists_stop m s
  have hf : t.frames = [] := frames_of_stop hstop hstatus
  exact ⟨t, hr, hf, (finish_eq_of_reach hr).trans (finish_of_stop (step_close hf))⟩

theorem step_store_grows (h : m.step s = .go t) {name : String} (hn : s.store.contains name = true) :
    t.store.contains name = true := by
  cases move_go h with
  | take _ _ _ => exact Store.contains_record_of_contains hn
  | keep _ _ _ => exact Store.contains_record_of_contains hn
  | _ => exact hn

/-- A name recorded stays recorded. -/
theorem Reach.store_grows (h : m.Reach s t) {name : String} (hn : s.store.contains name = true) :
    t.store.contains name = true :=
  h.keeps (P := fun t => t.store.contains name = true) (fun _ _ hs hu => step_store_grows hu hs) hn

theorem Reach.unrecorded (h : m.Reach s t) {name : String} (hn : t.store.contains name = false) :
    s.store.contains name = false :=
  Bool.eq_false_iff.2 fun hs => Bool.eq_false_iff.1 hn (h.store_grows hs)

/-! ## Words taken -/

/-- The word under the cursor is taken as `x` says and left behind. -/
def Takes (m : Setting) (s : State) (x : Taken) : Prop :=
  ∃ f fs calls, m.Visits s f fs x.param ∧ m.taker s x.param = (some (x.node, x.value), calls) ∧
    m.keepsWord s x.param = false

/-- On the way from `s` the word at place `i` is taken as `x` says. -/
def TakesAt (m : Setting) (s : State) (i : Nat) (x : Taken) : Prop :=
  ∃ t, m.Reach s t ∧ t.cursor = i ∧ m.Takes t x

/-- A word left behind was taken. -/
theorem Reach.takesAt (h : m.Reach s t) (hle : s.cursor ≤ i) (hlt : i < t.cursor) : ∃ x, m.TakesAt s i x := by
  induction h with
  | refl => omega
  | @step t u hr hu ih =>
    cases move_go hu with
    | @take f fs p node value calls hv ht hk =>
      by_cases hi : i < t.cursor
      · exact ih hi
      · have heq : t.cursor = i := by
          have : i < t.cursor + 1 := hlt
          omega
        exact ⟨⟨p, node, value⟩, t, hr, heq, f, fs, calls, hv, ht, hk⟩
    | _ => exact ih hlt

theorem Takes.step (h : m.Takes s x) : ∃ t, m.step s = .go t ∧ t.cursor = s.cursor + 1 := by
  obtain ⟨f, fs, calls, hv, ht, hk⟩ := h
  rw [hv.step_eq, visit_take ht hk]
  exact ⟨_, rfl, rfl⟩

theorem Takes.unique (h : m.Takes s x) (h' : m.Takes s y) : x = y := by
  obtain ⟨f, fs, calls, hv, ht, -⟩ := h
  obtain ⟨f', fs', calls', hv', ht', -⟩ := h'
  have hf := hv.frames.symm.trans hv'.frames
  cases hf
  have hp : some x.param = some y.param := hv.stands.symm.trans hv'.stands
  obtain ⟨xp, xn, xv⟩ := x
  obtain ⟨yp, yn, yv⟩ := y
  cases hp
  rw [ht] at ht'
  cases ht'
  rfl

theorem TakesAt.of_reach (h : m.TakesAt t i x) (hr : m.Reach s t) : m.TakesAt s i x := by
  obtain ⟨u, hu, hi, hx⟩ := h
  exact ⟨u, hr.trans hu, hi, hx⟩

/-- After a word was taken the cursor is past it. -/
theorem Takes.cursor_lt (h : m.Takes s x) (hr : m.Reach s t) : s = t ∨ s.cursor < t.cursor := by
  obtain ⟨u, hu, hc⟩ := h.step
  rcases hr.next hu with rfl | hut
  · exact .inl rfl
  · have := hut.cursor_le
    exact .inr (by omega)

/-- A run takes a word once. -/
theorem TakesAt.unique (h : m.TakesAt s i x) (h' : m.TakesAt s i y) : x = y := by
  obtain ⟨t, ht, hti, hx⟩ := h
  obtain ⟨u, hu, hui, hy⟩ := h'
  have htu : t = u := by
    rcases ht.linear hu with hr | hr
    · rcases hx.cursor_lt hr with h | h
      · exact h
      · omega
    · rcases hy.cursor_lt hr with h | h
      · exact h.symm
      · omega
  subst htu
  exact hx.unique hy

end Setting

/-! ## A command to try -/

namespace Sample

/-- Takes a `rate`, then `fast` with a `depth` or `slow`, then anything as its `note`. -/
def tune : Command where
  name := "tune"
  params := [
    { name := "rate", type := "NUM" },
    { name := "mode", type := "KW", isOptional := true
      mode := .switch [
        { name := "fast", type := "KW", mode := .subcommand "fast", params := [{ name := "depth", type := "NUM" }] },
        { name := "slow", type := "KW", mode := .subcommand "slow" }] }]
  args := some { name := "note", type := "KW" }

def never : Executor := fun _ _ => .error .noAction

def tuning : Setting where
  run := never
  scope := { session := { grammar := {
    types := [{ name := "NUM", method := .unsignedInteger none none },
      { name := "KW", method := .select ["fast", "slow"] }]
    commands := [tune] } } }
  command := tune
  words := []

/-- The words of a line without quotes. -/
def unquoted (texts : List String) : List Token := texts.map fun text => ⟨text, false, 0, text.utf8ByteSize⟩

end Sample

end LineMatch.Matching
