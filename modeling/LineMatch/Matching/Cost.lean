/-
  LineMatch.Matching.Cost — why a match ends.

  A parameter whose name is recorded takes no word again, so each time a word is taken
  the names still open in the lists being scanned become fewer, and only then does a
  scan go back or a new list begin. `State.cost` bounds the visits still to come;
  `step_cost` says that each visit lowers it.
-/

import LineMatch.Matching.Step

namespace LineMatch

/-! ## The weight of a list -/

mutual

/-- The visits that one word taken by this parameter or one of its alternatives can bring
    about in nested lists. -/
def Param.weight : Param → Nat
  | ⟨_, _, _, mode, _, _, _, params⟩ =>
    let alternatives := match mode with
      | .switch as => weights as
      | .ordinary | .subcommand _ => 0
    alternatives + (params.length + 1) * (params.length + 1) + weights params

def weights : List Param → Nat
  | [] => 0
  | p :: ps => p.weight + weights ps

end

theorem weight_le_weights {p : Param} {ps : List Param} (h : p ∈ ps) : p.weight ≤ weights ps := by
  induction ps with
  | nil => cases h
  | cons q qs ih =>
    rw [weights]
    cases h with
    | head => omega
    | tail _ h => have := ih h; omega

/-! ## What a store grows by -/

namespace Store

theorem contains_iff {s : Store} {name : String} : s.contains name = true ↔ name ∈ s.names := by
  simp [contains, find?, names, List.find?_isSome]

theorem mem_names_put {d : Entry} {ds : List Entry} {name : String} :
    name ∈ (put d ds).map Entry.name ↔ name = d.name ∨ name ∈ ds.map Entry.name := by
  induction ds with
  | nil => simp [put]
  | cons e es ih =>
    rw [put]
    split
    · next h => simp [h]
    · rw [List.map_cons, List.mem_cons, ih, List.map_cons, List.mem_cons]
      exact or_left_comm

theorem contains_insert {s : Store} {p : Param} {value name : String} :
    (s.insert p value).contains name = true ↔ name = p.name ∨ s.contains name = true := by
  rw [contains_iff, contains_iff]
  exact mem_names_put

theorem contains_record_of_contains {s : Store} {p node : Param} {value name : String}
    (h : s.contains name = true) : (s.record p node value).contains name = true := by
  rw [record, contains_insert]
  split
  · rw [contains_insert]
    exact .inr (.inr h)
  · exact .inr h

end Store

/-- A word taken adds the name of what took it and that of the parameter. -/
theorem contains_record_iff {s : Store} {p node : Param} {value name : String} (hnode : node ∈ p.choices) :
    (s.record p node value).contains name = true ↔
      name = node.name ∨ name = p.name ∨ s.contains name = true := by
  rw [Store.record, Store.contains_insert]
  rcases hp : p.isSwitch with _ | _
  · rw [Param.choices_of_not_isSwitch hp] at hnode
    simp [List.mem_singleton.1 hnode]
  · rw [if_pos rfl, Store.contains_insert]

namespace Matching

/-! ## The cost of a state -/

/-- The visits that words taken in a list can still bring about. -/
def openCost (store : Store) (step : Nat) : List Param → Nat
  | [] => 0
  | p :: ps => (if store.contains p.name then 0 else step + p.weight) + openCost store step ps

def Frame.cost (store : Store) (f : Frame) : Nat :=
  (f.params.length - f.index + 1) + openCost store (f.params.length + 1) f.params

def framesCost (store : Store) : List Frame → Nat
  | [] => 0
  | f :: fs => f.cost store + framesCost store fs

def State.cost (s : State) : Nat := framesCost s.store s.frames

section

variable {store store' : Store}

theorem openCost_le (h : ∀ name, store.contains name = true → store'.contains name = true)
    (n : Nat) (ps : List Param) : openCost store' n ps ≤ openCost store n ps := by
  induction ps with
  | nil => exact Nat.le_refl _
  | cons p ps ih =>
    simp only [openCost] at ih ⊢
    refine Nat.add_le_add ?_ ih
    split
    · exact Nat.zero_le _
    · next hp => exact Nat.le_of_eq (if_neg fun hs => hp (h _ hs)).symm

/-- A parameter whose name becomes recorded is no longer counted. -/
theorem openCost_add_le (h : ∀ name, store.contains name = true → store'.contains name = true)
    {p : Param} {ps : List Param} (hp : p ∈ ps) (hs : store.contains p.name = false)
    (hs' : store'.contains p.name = true) (n : Nat) :
    openCost store' n ps + (n + p.weight) ≤ openCost store n ps := by
  induction ps with
  | nil => cases hp
  | cons q qs ih =>
    have hle := openCost_le h n qs
    simp only [openCost] at ih hle ⊢
    cases hp with
    | head =>
      rw [if_pos hs', if_neg (by simp [hs])]
      omega
    | tail _ hp =>
      have := ih hp
      have hq : (if store'.contains q.name then 0 else n + q.weight) ≤
          (if store.contains q.name then 0 else n + q.weight) := by
        split
        · exact Nat.zero_le _
        · next hn => exact Nat.le_of_eq (if_neg fun hc => hn (h _ hc)).symm
      omega

theorem Frame.cost_le (h : ∀ name, store.contains name = true → store'.contains name = true) (f : Frame) :
    f.cost store' ≤ f.cost store :=
  Nat.add_le_add_left (openCost_le h _ _) _

theorem framesCost_le (h : ∀ name, store.contains name = true → store'.contains name = true)
    (fs : List Frame) : framesCost store' fs ≤ framesCost store fs := by
  induction fs with
  | nil => exact Nat.le_refl _
  | cons f fs ih =>
    simp only [framesCost] at ih ⊢
    exact Nat.add_le_add (Frame.cost_le h f) ih

end

theorem openCost_le_weights (store : Store) (n : Nat) (ps : List Param) :
    openCost store n ps ≤ ps.length * n + weights ps := by
  induction ps with
  | nil => simp [openCost]
  | cons p ps ih =>
    simp only [openCost, List.length_cons, weights, Nat.succ_mul] at ih ⊢
    split <;> omega

/-- A list nested in a parameter costs no more than the parameter weighs. -/
theorem cost_nested_le (store : Store) (p : Param) : Frame.cost store ⟨p.params, 0, 0⟩ ≤ p.weight := by
  obtain ⟨_, _, _, mode, _, _, _, params⟩ := p
  have h := openCost_le_weights store (params.length + 1) params
  have hsq : (params.length + 1) * (params.length + 1) =
      params.length * (params.length + 1) + (params.length + 1) :=
    Nat.succ_mul _ _
  cases mode <;> simp only [Frame.cost, Param.weight, hsq] <;> omega

theorem weights_alternatives_le (p : Param) : weights p.alternatives ≤ p.weight := by
  obtain ⟨_, _, _, mode, _, _, _, _⟩ := p
  cases mode <;> simp only [Param.alternatives, Param.weight, weights] <;> omega

theorem weight_choice_le {p node : Param} (h : node ∈ p.choices) : node.weight ≤ p.weight := by
  rcases List.mem_cons.1 (p.choices_subset _ h) with rfl | h
  · exact Nat.le_refl _
  · exact Nat.le_trans (weight_le_weights h) (weights_alternatives_le p)

/-! ## Visits lower it -/

theorem Frame.cost_pass (store : Store) {f : Frame} (h : f.index < f.params.length) :
    f.pass.cost store < f.cost store := by
  simp only [Frame.cost, Frame.pass]
  omega

/-- The list goes on at most one whole scan longer after a word was taken. -/
theorem Frame.cost_take {store store' : Store}
    (h : ∀ name, store.contains name = true → store'.contains name = true) {f : Frame} {p : Param}
    (hp : p ∈ f.params) (hs : store.contains p.name = false) (hs' : store'.contains p.name = true) :
    (f.take p).cost store' + p.weight < f.cost store := by
  have := openCost_add_le h hp hs hs' (f.params.length + 1)
  rw [Frame.take]
  split <;> simp only [Frame.cost] <;> omega

namespace Setting

theorem mem_choices_of_firstToAccept {m : Setting} {s : State} {word : String} {ps : List Param}
    {calls : List Scope} {node : Param} {value : String}
    (h : (m.firstToAccept s word ps calls).1 = some (node, value)) : node ∈ ps := by
  induction ps generalizing calls with
  | nil => cases h
  | cons p ps ih =>
    rw [firstToAccept] at h
    split at h
    · split at h
      · cases h
        exact List.mem_cons_self
      · exact List.mem_cons_of_mem _ (ih h)
    · exact List.mem_cons_of_mem _ (ih h)

/-- What takes a word is a choice of a parameter that is not recorded yet. -/
theorem taker_some {m : Setting} {s : State} {p node : Param} {value : String} {calls : List Scope}
    (h : m.taker s p = (some (node, value), calls)) :
    node ∈ p.choices ∧ s.store.contains p.name = false := by
  rw [taker] at h
  split at h
  · split at h
    · cases h
    · next hc => exact ⟨mem_choices_of_firstToAccept (congrArg Prod.fst h), by simpa using hc⟩
  · cases h

/-- Recording a choice of `p` records `p`. -/
theorem contains_record {s : Store} {p node : Param} {value : String} (h : node ∈ p.choices) :
    (s.record p node value).contains p.name = true :=
  (contains_record_iff h).2 (.inr (.inl rfl))

theorem visit_cost {m : Setting} {s s' : State} {f : Frame} {fs : List Frame} {p : Param}
    (hf : s.frames = f :: fs) (hp : f.params[f.index]? = some p) (h : m.visit s f fs p = .go s') :
    s'.cost < s.cost := by
  have hlt : f.index < f.params.length := (List.getElem?_eq_some_iff.1 hp).1
  have hmem : p ∈ f.params := List.mem_of_getElem? hp
  have hcost : s.cost = f.cost s.store + framesCost s.store fs := by
    simp [State.cost, framesCost, hf]
  rw [visit] at h
  split at h
  · next node value calls ht =>
    have ⟨hnode, hnew⟩ := taker_some ht
    have hgrow : ∀ name, s.store.contains name = true → (s.store.record p node value).contains name = true :=
      fun _ => Store.contains_record_of_contains
    have htake := Frame.cost_take hgrow hmem hnew (contains_record hnode)
    have hrest := framesCost_le hgrow fs
    have hnested := cost_nested_le (s.store.record p node value) node
    have hweight := weight_choice_le hnode
    split at h <;> cases h <;> rw [hcost] <;>
      simp only [State.cost, framesCost] at hrest ⊢ <;> omega
  · split at h
    · cases h
      have hpass := Frame.cost_pass s.store hlt
      rw [hcost]
      simp only [State.cost, framesCost]
      omega
    · cases h

theorem step_cost {m : Setting} {s s' : State} (h : m.step s = .go s') : s'.cost < s.cost := by
  rw [step] at h
  split at h
  · cases h
  · next f fs hf =>
    split at h
    · cases h
      simp only [State.cost, framesCost, hf, Frame.cost]
      omega
    · next p hp =>
      split at h
      · exact visit_cost hf hp h
      · cases h
        have hpass := Frame.cost_pass s.store (List.getElem?_eq_some_iff.1 hp).1
        simp only [State.cost, framesCost, hf]
        omega

end Setting

end Matching

end LineMatch
