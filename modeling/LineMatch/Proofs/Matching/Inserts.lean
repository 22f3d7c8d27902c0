/-
  LineMatch.Proofs.Matching.Inserts — what a match puts into its two stores.

  `m.recordings s` lists what the step at `s` records and `m.offerings s` what it offers,
  each parameter with its value, in order. All that a match puts into a store it puts in
  by one of these (`step_store`, `step_candidates`), so what is so of every parameter in
  the lists is so of every parameter in the stores.

  Proved:
  - `applies_of_mem_recordings`, `applies_of_mem_offerings`: a parameter recorded or
    offered by a visit applies in the store that the visit finds.
  - `inserted_applies`: on a line, a parameter is inserted only where it applies, the one
    for words left over apart; its test is not looked at.
  - `ungated_rest`: so that one is inserted where its test does not hold.
-/

import LineMatch.Grammar.Check
import LineMatch.Line.Basic
import LineMatch.Proofs.Matching.Accounting
import LineMatch.Proofs.Matching.Offers

namespace LineMatch.Matching

namespace Setting

variable {m : Setting} {s t : State} {f : Frame} {fs : List Frame} {p q node args : Param} {value : String}
  {calls : List Scope} {x : Param × String}

/-! ## The lists of inserts -/

/-- Whether the words left over are folded at the end of all lists. -/
def folds (m : Setting) (s : State) : Bool := m.takesRest && decide (s.cursor < m.words.length)

/-- Whether the parameter for words left over is offered at the end of all lists. -/
def offersRest (m : Setting) (s : State) : Bool :=
  m.takesRest && (m.target.isSome && s.candidates.isEmpty && decide (s.cursor ≤ m.words.length))

/-- What is recorded at the end of all lists. -/
def foldings (m : Setting) (s : State) : List (Param × String) :=
  if m.folds s then m.command.args.toList.map fun args => (args, fold (m.words.drop s.cursor)) else []

/-- What is offered at the end of all lists. -/
def restOfferings (m : Setting) (s : State) : List (Param × String) :=
  if m.offersRest s then m.command.args.toList.map fun args => (args, "") else []

/-- What the step at `s` records. -/
def recordings (m : Setting) (s : State) : List (Param × String) :=
  match s.frames with
  | [] => m.foldings s
  | f :: _ =>
    match f.params[f.index]? with
    | none => []
    | some p =>
      if m.applies s p then
        match (m.taker s p).1 with
        | some (node, value) => (Taken.mk p node value).inserts
        | none => []
      else []

/-- What the step at `s` offers. -/
def offerings (m : Setting) (s : State) : List (Param × String) :=
  match s.frames with
  | [] => m.restOfferings s
  | f :: _ =>
    match f.params[f.index]? with
    | none => []
    | some p =>
      if m.applies s p && m.atTarget s && !s.store.contains p.name then
        (m.offers s p).map fun q => (q, (m.word? s).getD "")
      else []

theorem Visits.recordings (h : m.Visits s f fs p) : m.recordings s =
    match (m.taker s p).1 with
    | some (node, value) => (Taken.mk p node value).inserts
    | none => [] := by
  simp [Setting.recordings, h.frames, h.stands, h.applies]

theorem Visits.recordings_of_taken (h : m.Visits s f fs p) (ht : m.taker s p = (some (node, value), calls)) :
    m.recordings s = (Taken.mk p node value).inserts := by
  rw [h.recordings, ht]

theorem Visits.recordings_of_not_taken (h : m.Visits s f fs p) (ht : m.taker s p = (none, calls)) :
    m.recordings s = [] := by
  rw [h.recordings, ht]

theorem Visits.offerings (h : m.Visits s f fs p) : m.offerings s =
    if m.atTarget s && !s.store.contains p.name then (m.offers s p).map fun q => (q, (m.word? s).getD "")
    else [] := by
  simp [Setting.offerings, h.frames, h.stands, h.applies]

theorem inserts_of_close (h : s.frames = []) :
    m.recordings s = m.foldings s ∧ m.offerings s = m.restOfferings s := by
  simp [recordings, offerings, h]

theorem inserts_of_leave (h : s.frames = f :: fs) (hp : f.params[f.index]? = none) :
    m.recordings s = [] ∧ m.offerings s = [] := by
  simp [recordings, offerings, h, hp]

theorem inserts_of_skip (h : s.frames = f :: fs) (hp : f.params[f.index]? = some p) (ha : m.applies s p = false) :
    m.recordings s = [] ∧ m.offerings s = [] := by
  simp [recordings, offerings, h, hp, ha]

/-- As long as a list is left, nothing is inserted but by a visit. -/
theorem idle_or_visits (hf : s.frames ≠ []) :
    (m.recordings s = [] ∧ m.offerings s = []) ∨ ∃ f fs p, m.Visits s f fs p := by
  have hmove := m.move s
  generalize m.step s = next at hmove
  cases hmove with
  | close h => exact absurd h hf
  | leave h hp => exact .inl (inserts_of_leave h hp)
  | skip h hp ha => exact .inl (inserts_of_skip h hp ha)
  | take hv _ _ => exact .inr ⟨_, _, _, hv⟩
  | keep hv _ _ => exact .inr ⟨_, _, _, hv⟩
  | pass hv _ _ => exact .inr ⟨_, _, _, hv⟩
  | refuse hv _ _ => exact .inr ⟨_, _, _, hv⟩

/-- In a match without a target a visit records the word it takes, and no other step of a
    scan records anything. -/
theorem takes_or_idle (htarget : m.target = none) (hf : s.frames ≠ []) :
    (∃ x, m.Takes s x ∧ m.recordings s = x.inserts) ∨ ((∀ x, ¬ m.Takes s x) ∧ m.recordings s = []) := by
  have hidle : ∀ next, m.step s = next → next.state.cursor = s.cursor → ∀ x, ¬ m.Takes s x := by
    rintro next hs hc x hx
    obtain ⟨t, ht, hcursor⟩ := hx.step
    rw [← hs, ht] at hc
    have : t.cursor = s.cursor := hc
    omega
  have hmove := m.move s
  generalize hs : m.step s = next at hmove
  cases hmove with
  | close h => exact absurd h hf
  | leave h hp => exact .inr ⟨hidle _ hs rfl, (inserts_of_leave h hp).1⟩
  | skip h hp ha => exact .inr ⟨hidle _ hs rfl, (inserts_of_skip h hp ha).1⟩
  | take hv ht hk => exact .inl ⟨⟨_, _, _⟩, ⟨_, _, _, hv, ht, hk⟩, hv.recordings_of_taken ht⟩
  | keep _ _ hk =>
    rw [keepsWord_of_no_target htarget] at hk
    cases hk
  | pass hv ht _ => exact .inr ⟨hidle _ hs rfl, hv.recordings_of_not_taken ht⟩
  | refuse hv ht _ => exact .inr ⟨hidle _ hs rfl, hv.recordings_of_not_taken ht⟩

/-! ## Nothing else is inserted -/

theorem close_store (m : Setting) (s : State) : (m.close s).2.store = s.store.insertAll (m.foldings s) := by
  rcases hr : m.takesRest with _ | _
  · simp [close, foldings, folds, hr, Store.insertAll]
  rcases ha : m.command.args with _ | args
  · simp [close, foldings, hr, ha, Store.insertAll]
  · by_cases hlt : s.cursor < m.words.length <;>
      simp [close, foldings, folds, hr, ha, hlt, Store.insertAll]

theorem close_offers (m : Setting) (s : State) :
    (m.close s).2.candidates = s.candidates.insertAll (m.restOfferings s) := by
  rcases hr : m.takesRest with _ | _
  · simp [close, restOfferings, offersRest, hr, Store.insertAll]
  rcases ha : m.command.args with _ | args
  · simp [close, restOfferings, hr, ha, Store.insertAll]
  · have hclose : (m.close s).2.candidates = m.offerRest s args := by
      simp only [close, hr, ha, apply_ite Prod.snd, apply_ite State.candidates, ite_self]
    rw [hclose, offerRest, restOfferings, offersRest, hr, ha, Bool.true_and]
    split <;> rfl

/-- What a step records is all that it changes in the store. -/
theorem step_store (m : Setting) (s : State) : (m.step s).state.store = s.store.insertAll (m.recordings s) := by
  have hmove := m.move s
  generalize m.step s = next at hmove ⊢
  cases hmove with
  | close hf => rw [(inserts_of_close hf).1]; exact close_store m s
  | leave hf hp => rw [(inserts_of_leave hf hp).1]; rfl
  | skip hf hp ha => rw [(inserts_of_skip hf hp ha).1]; rfl
  | take hv ht _ => rw [hv.recordings_of_taken ht]; exact Taken.record_eq s.store ⟨_, _, _⟩
  | keep hv ht _ => rw [hv.recordings_of_taken ht]; exact Taken.record_eq s.store ⟨_, _, _⟩
  | pass hv ht _ => rw [hv.recordings_of_not_taken ht]; rfl
  | refuse hv ht _ => rw [hv.recordings_of_not_taken ht]; rfl

/-- What a step offers is all that it changes in the candidates. -/
theorem step_candidates (m : Setting) (s : State) :
    (m.step s).state.candidates = s.candidates.insertAll (m.offerings s) := by
  rcases hf : s.frames with _ | ⟨f, fs⟩
  · rw [step_close hf, (inserts_of_close hf).2]
    exact close_offers m s
  rcases hp : f.params[f.index]? with _ | p
  · rw [step_leave hf hp, (inserts_of_leave hf hp).2]
    rfl
  rcases ha : m.applies s p with _ | _
  · rw [step_skip hf hp ha, (inserts_of_skip hf hp ha).2]
    rfl
  have hv : m.Visits s f fs p := ⟨hf, hp, ha⟩
  rw [hv.candidates, hv.offerings]
  by_cases h : (m.atTarget s && !s.store.contains p.name) = true
  · rw [if_pos h]
    simp only [Bool.and_eq_true, Bool.not_eq_true'] at h
    exact offer_eq h.1 h.2
  · rw [if_neg h]
    exact if_neg h

/-! ## What is inserted applies -/

/-- All that the step at `s` inserts applies there. -/
def InsertsApply (m : Setting) (s : State) : Prop :=
  ∀ x ∈ m.recordings s ++ m.offerings s, m.applies s x.1 = true

instance (m : Setting) (s : State) : Decidable (m.InsertsApply s) :=
  inferInstanceAs (Decidable (∀ x ∈ m.recordings s ++ m.offerings s, m.applies s x.1 = true))

theorem mem_inserts {y : Taken} (h : x ∈ y.inserts) : x.1 = y.param ∨ x.1 = y.node := by
  unfold Taken.inserts at h
  split at h
  · simp only [List.mem_cons, List.not_mem_nil, or_false] at h
    rcases h with rfl | rfl
    · exact .inl rfl
    · exact .inr rfl
  · rw [List.mem_singleton.1 h]
    exact .inr rfl

/-- A parameter recorded at a visit, and one through which it is recorded, apply there. -/
theorem applies_of_mem_recordings (hf : s.frames ≠ []) (h : x ∈ m.recordings s) : m.applies s x.1 = true := by
  rcases idle_or_visits (m := m) hf with ⟨hnil, -⟩ | ⟨f, fs, p, hv⟩
  · rw [hnil] at h
    cases h
  rcases ht : m.taker s p with ⟨_ | ⟨node, value⟩, calls⟩
  · rw [hv.recordings_of_not_taken ht] at h
    cases h
  · rw [hv.recordings_of_taken ht] at h
    obtain ⟨-, -, -, -, hnode, -⟩ := taker_spec ht
    rcases mem_inserts h with hx | hx
    · rw [hx]
      exact hv.applies
    · rw [hx]
      exact hnode

theorem applies_of_mem_offerings (hf : s.frames ≠ []) (h : x ∈ m.offerings s) : m.applies s x.1 = true := by
  rcases idle_or_visits (m := m) hf with ⟨-, hnil⟩ | ⟨f, fs, p, hv⟩
  · rw [hnil] at h
    cases h
  rw [hv.offerings] at h
  split at h
  · obtain ⟨q, hq, rfl⟩ := List.mem_map.1 h
    have hoffer := (List.mem_filter.1 hq).2
    simp only [Bool.and_eq_true] at hoffer
    exact hoffer.1
  · cases h

/-- A visit inserts what applies. -/
theorem insertsApply_of_frames (hf : s.frames ≠ []) : m.InsertsApply s := by
  intro x hx
  rcases List.mem_append.1 hx with hx | hx
  · exact applies_of_mem_recordings hf hx
  · exact applies_of_mem_offerings hf hx

/-- At the end of all lists it is the parameter for words left over that is inserted. -/
theorem mem_inserts_of_close (hf : s.frames = []) (h : x ∈ m.recordings s ++ m.offerings s) :
    m.command.args = some x.1 ∧ (m.folds s || m.offersRest s) = true := by
  rw [(inserts_of_close hf).1, (inserts_of_close hf).2] at h
  rcases List.mem_append.1 h with h | h
  · unfold foldings at h
    split at h
    · next hc =>
      obtain ⟨args, hargs, rfl⟩ := List.mem_map.1 h
      exact ⟨Option.mem_toList.1 hargs, by simp [hc]⟩
    · cases h
  · unfold restOfferings at h
    split at h
    · next hc =>
      obtain ⟨args, hargs, rfl⟩ := List.mem_map.1 h
      exact ⟨Option.mem_toList.1 hargs, by simp [hc]⟩
    · cases h

theorem exists_inserts_of_close (hf : s.frames = []) (ha : m.command.args = some args)
    (h : (m.folds s || m.offersRest s) = true) : ∃ value, (args, value) ∈ m.recordings s ++ m.offerings s := by
  rw [(inserts_of_close hf).1, (inserts_of_close hf).2, foldings, restOfferings, ha]
  rcases Bool.or_eq_true_iff.1 h with h | h
  · exact ⟨_, List.mem_append_left _ (by rw [if_pos h]; exact List.mem_singleton.2 rfl)⟩
  · exact ⟨_, List.mem_append_right _ (by rw [if_pos h]; exact List.mem_singleton.2 rfl)⟩

/-- Every parameter that the match of a line inserts, with a target or without, applies in
    the store that its visit finds, or else it is the one for words left over, inserted at
    the end of all lists. So all that is inserted applies exactly where that one applies
    whenever it is inserted. -/
theorem inserted_applies (session : Session) (run : Executor) (line : String) (c : Command) (target : Option Nat) :
    let m := session.setting run c (tokens line) target
    let first := start c.params c.wordCount .empty
    (∀ t, m.Reach first t →
      (m.step t).state.store = t.store.insertAll (m.recordings t) ∧
        (m.step t).state.candidates = t.candidates.insertAll (m.offerings t) ∧
          ∀ x ∈ m.recordings t ++ m.offerings t,
            m.applies t x.1 = true ∨ (t.frames = [] ∧ c.args = some x.1)) ∧
      ((∀ t, m.Reach first t → m.InsertsApply t) ↔
        ∀ t, m.Reach first t → t.frames = [] → (m.folds t || m.offersRest t) = true →
          ∀ args, c.args = some args → m.applies t args = true) := by
  intro m first
  refine ⟨fun t _ => ⟨step_store m t, step_candidates m t, fun x hx => ?_⟩, fun h t hr hf hi args ha => ?_,
    fun h t hr => ?_⟩
  · by_cases hf : t.frames = []
    · exact .inr ⟨hf, (mem_inserts_of_close hf hx).1⟩
    · exact .inl (insertsApply_of_frames hf x hx)
  · obtain ⟨value, hx⟩ := exists_inserts_of_close hf ha hi
    exact h t hr _ hx
  · by_cases hf : t.frames = []
    · intro x hx
      obtain ⟨ha, hi⟩ := mem_inserts_of_close hf hx
      exact h t hr hf hi x.1 ha
    · exact insertsApply_of_frames hf

end Setting

/-! ## A command with tests -/

namespace Sample

/-- Takes a `speed` where the variable `mode` is `fast`, and nothing as the `rest`. -/
def gated : Command where
  name := "go"
  params := [{ name := "speed", type := "NUM", isOptional := true, test := some "${mode} = fast" }]
  args := some { name := "rest", type := "NUM", test := some "1 = 2" }

def gating : Session where
  grammar := { types := [{ name := "NUM", method := .unsignedInteger none none }], commands := [gated] }
  vars := [("mode", "fast")]

end Sample

open Matching.Sample

namespace Setting

/-- The word `5` is recorded as the `speed`, whose test holds then. -/
theorem go_inserted_applies :
    let m := gating.setting never gated (tokens "go 5") none
    ∃ t, m.Reach (start gated.params 1 .empty) t ∧ ∃ x ∈ m.recordings t, x.1.test.isSome = true ∧
      m.applies t x.1 = true := by
  intro m
  have hany : ((m.recordings (start gated.params 1 .empty)).any fun x => x.1.test.isSome) = true := by
    decide +kernel
  obtain ⟨x, hx, htest⟩ := List.any_eq_true.1 hany
  refine ⟨_, .refl _, x, hx, htest, ?_⟩
  rcases ((inserted_applies gating never "go 5" gated none).1 _ (.refl _)).2.2 x (List.mem_append_left _ hx)
    with h | ⟨hf, -⟩
  · exact h
  · cases hf

/-- The test of the `rest` never holds. The grammar is well formed, and yet a word left
    over is recorded for it, and it is offered as what could follow. -/
theorem ungated_rest : gating.grammar.check.isOk = true ∧
    (let m := gating.setting never gated (tokens "go 5 6") none
      ∃ t, m.Reach (start gated.params gated.wordCount .empty) t ∧ ¬ m.InsertsApply t) ∧
      (let m := gating.setting never gated (tokens "go 5 ") (some 2)
        ∃ t, m.Reach (start gated.params gated.wordCount .empty) t ∧ ¬ m.InsertsApply t) := by
  refine ⟨by decide +kernel, ?_, ?_⟩
  · exact ⟨_, reach_after _ 4 _, by decide +kernel⟩
  · exact ⟨_, reach_after _ 4 _, by decide +kernel⟩

end Setting

end LineMatch.Matching
