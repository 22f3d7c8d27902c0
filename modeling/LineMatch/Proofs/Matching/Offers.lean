/-
  LineMatch.Proofs.Matching.Offers — the candidates of a run.

  `m.Offered s q`: on the way from `s` a parameter is visited at the target that has not
  been recorded, and `q` is among the choices it offers there. A run's candidates are
  what its visits offered; the parameter for words left over is one where nothing was.

  Proved:
  - `Reach.candidates_grow`, `contains_finish`: a candidate stays one.
  - `Offered.contains`: what is offered on the way is a candidate at the end.
  - `mem_candidates`: and nothing else is.
-/

import LineMatch.Proofs.Matching.Reach
import LineMatch.Proofs.Store

namespace LineMatch.Matching

/-- The state after a step, also where it ends the match. -/
def Next.state : Next → State
  | .go s => s
  | .stop _ s => s

namespace Setting

variable {m : Setting} {s t : State} {f : Frame} {fs : List Frame} {p q : Param} {e : Entry} {name : String}

/-! ## One visit -/

/-- At the target, for a parameter not recorded, each choice offered is inserted. -/
theorem offer_eq (ht : m.atTarget s = true) (hn : s.store.contains p.name = false) :
    m.offer s p = s.candidates.insertAll ((m.offers s p).map fun q => (q, (m.word? s).getD "")) := by
  rw [offer, if_pos (by simp [ht, hn]), Store.insertAll, List.foldl_map]

theorem offer_cases (m : Setting) (s : State) (p : Param) :
    m.offer s p = s.candidates ∨ (m.atTarget s = true ∧ s.store.contains p.name = false) := by
  by_cases h : (m.atTarget s && !s.store.contains p.name) = true
  · exact .inr (by simpa using h)
  · exact .inl (if_neg h)

theorem contains_offer_of_contains (hn : s.candidates.contains name = true) :
    (m.offer s p).contains name = true := by
  rcases offer_cases m s p with h | ⟨ht, hnew⟩
  · exact h ▸ hn
  · rw [offer_eq ht hnew]
    exact Store.contains_insertAll.2 (.inr hn)

theorem contains_offer (ht : m.atTarget s = true) (hn : s.store.contains p.name = false) (hq : q ∈ m.offers s p) :
    (m.offer s p).contains q.name = true := by
  rw [offer_eq ht hn]
  exact Store.contains_insertAll.2 (.inl ⟨_, List.mem_map_of_mem hq, rfl⟩)

theorem mem_offer (he : e ∈ (m.offer s p).entries) : e ∈ s.candidates.entries ∨
    (m.atTarget s = true ∧ s.store.contains p.name = false ∧ e.param ∈ m.offers s p) := by
  rcases offer_cases m s p with h | ⟨ht, hn⟩
  · exact .inl (h ▸ he)
  rw [offer_eq ht hn] at he
  rcases Store.mem_insertAll he with ⟨x, hx, rfl⟩ | he
  · obtain ⟨q, hq, rfl⟩ := List.mem_map.1 hx
    exact .inr ⟨ht, hn, hq⟩
  · exact .inl he

theorem Visits.candidates (h : m.Visits s f fs p) : (m.step s).state.candidates = m.offer s p := by
  rw [h.step_eq, visit]
  split
  · split <;> rfl
  · split <;> rfl

/-! ## One step -/

theorem close_candidates (m : Setting) (s : State) : (m.close s).2.candidates = s.candidates ∨
    ∃ args, m.command.args = some args ∧ s.candidates.isEmpty = true ∧
      (m.close s).2.candidates = s.candidates.insert args "" := by
  unfold close
  split
  · exact .inl rfl
  · exact .inl rfl
  · next args _ ha =>
    simp only [apply_ite Prod.snd, apply_ite State.candidates, ite_self, offerRest]
    split
    · next h =>
      have he : s.candidates.isEmpty = true := by
        simp only [Bool.and_eq_true] at h
        exact h.1.2
      exact .inr ⟨args, ha, he, rfl⟩
    · exact .inl rfl

theorem step_candidates_grow (hn : s.candidates.contains name = true) :
    (m.step s).state.candidates.contains name = true := by
  have hmove := m.move s
  generalize m.step s = next at hmove ⊢
  cases hmove with
  | close _ =>
    rcases close_candidates m s with h | ⟨args, -, -, h⟩
    · exact h ▸ hn
    · exact h ▸ Store.contains_insert.2 (.inr hn)
  | leave _ _ => exact hn
  | skip _ _ _ => exact hn
  | take _ _ _ => exact contains_offer_of_contains hn
  | keep _ _ _ => exact contains_offer_of_contains hn
  | pass _ _ _ => exact contains_offer_of_contains hn
  | refuse _ _ _ => exact contains_offer_of_contains hn

/-! ## A run -/

/-- A candidate stays one. -/
theorem Reach.candidates_grow (h : m.Reach s t) (hn : s.candidates.contains name = true) :
    t.candidates.contains name = true := by
  refine h.keeps (P := fun t => t.candidates.contains name = true) (fun t u ht hu => ?_) hn
  have := step_candidates_grow (m := m) ht
  rwa [hu] at this

theorem contains_finish (h : (m.step s).state.candidates.contains name = true) :
    (m.finish s).2.candidates.contains name = true := by
  obtain ⟨u, hr, hstop⟩ := exists_stop m s
  rcases hr.cases_head with rfl | ⟨v, hv, hvu⟩
  · rwa [hstop] at h
  · rw [hv] at h
    have := step_candidates_grow (m := m) (hvu.candidates_grow h)
    rwa [hstop] at this

/-- A parameter visited at the target offers `q` on the way. -/
def Offered (m : Setting) (s : State) (q : Param) : Prop :=
  ∃ t f fs p, m.Reach s t ∧ m.Visits t f fs p ∧ m.atTarget t = true ∧ t.store.contains p.name = false ∧
    q ∈ m.offers t p

/-- What is offered on the way is a candidate at the end. -/
theorem Offered.contains (h : m.Offered s q) : (m.finish s).2.candidates.contains q.name = true := by
  obtain ⟨t, f, fs, p, hr, hv, ht, hn, hq⟩ := h
  rw [finish_eq_of_reach hr]
  refine contains_finish ?_
  rw [hv.candidates]
  exact contains_offer ht hn hq

theorem mem_step_candidates (hr : m.Reach s t) (he : e ∈ (m.step t).state.candidates.entries) :
    e ∈ t.candidates.entries ∨ m.Offered s e.param ∨
      (t.frames = [] ∧ t.candidates.isEmpty = true ∧ m.command.args = some e.param ∧ e.value = "") := by
  rcases hf : t.frames with _ | ⟨f, fs⟩
  · rw [step_close hf] at he
    rcases close_candidates m t with h | ⟨args, ha, hempty, h⟩
    · exact .inl (h ▸ he)
    · rcases Store.mem_insert (h ▸ he : e ∈ (t.candidates.insert args "").entries) with rfl | he
      · exact .inr (.inr ⟨rfl, hempty, ha, rfl⟩)
      · exact .inl he
  rcases hp : f.params[f.index]? with _ | p
  · rw [step_leave hf hp] at he
    exact .inl he
  rcases ha : m.applies t p with _ | _
  · rw [step_skip hf hp ha] at he
    exact .inl he
  have hv : m.Visits t f fs p := ⟨hf, hp, ha⟩
  rw [hv.candidates] at he
  rcases mem_offer he with he | ⟨ht, hn, hq⟩
  · exact .inl he
  · exact .inr (.inl ⟨t, f, fs, p, hr, hv, ht, hn, hq⟩)

theorem Reach.mem_candidates (h : m.Reach s t) (he : e ∈ t.candidates.entries) :
    e ∈ s.candidates.entries ∨ m.Offered s e.param := by
  induction h with
  | refl => exact .inl he
  | @step v u hr hu ih =>
    have he' : e ∈ (m.step v).state.candidates.entries := by rw [hu]; exact he
    rcases mem_step_candidates hr he' with he | he | ⟨hf, -, -⟩
    · exact ih he
    · exact .inr he
    · rw [step_close hf] at hu
      cases hu

/-- Every candidate was there at the start or is offered on the way, or it is the
    parameter for words left over, with an empty value, and nothing else is a candidate. -/
theorem mem_candidates (he : e ∈ (m.finish s).2.candidates.entries) :
    e ∈ s.candidates.entries ∨ m.Offered s e.param ∨
      (m.command.args = some e.param ∧ e.value = "" ∧ ∀ q, ¬ m.Offered s q) := by
  obtain ⟨u, hr, hstop⟩ := exists_stop m s
  have he' : e ∈ (m.step u).state.candidates.entries := by rw [hstop]; exact he
  rcases mem_step_candidates hr he' with he | he | ⟨hf, hempty, ha, hvalue⟩
  · exact (hr.mem_candidates he).imp id .inl
  · exact .inr (.inl he)
  refine .inr (.inr ⟨ha, hvalue, fun q hq => ?_⟩)
  obtain ⟨t, f, fs, p, ht, hv, htarget, hn, hq⟩ := hq
  -- the visit comes before the closing step, so its candidates are still there at `u`
  have htu : m.Reach t u := by
    rcases ht.linear hr with h | h
    · exact h
    · rw [h.eq_of_stop hstop]
      exact .refl t
  rcases htu.cases_head with rfl | ⟨v, hstep, hvu⟩
  · have := hv.frames
    rw [hf] at this
    cases this
  have hcontains : u.candidates.contains q.name = true := by
    refine hvu.candidates_grow ?_
    have := contains_offer htarget hn hq
    rwa [← hv.candidates, hstep] at this
  have hnil : u.candidates.entries = [] := List.isEmpty_iff.1 hempty
  simp [Store.contains, Store.find?, hnil] at hcontains

end Setting

end LineMatch.Matching
