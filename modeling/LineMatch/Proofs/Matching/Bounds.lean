/-
  LineMatch.Proofs.Matching.Bounds — how long a scan is, and how deep.

  Neither the index of a list nor the words behind measure a scan: the index goes back, and
  a word that is being completed may stay under the cursor. What measures it are the
  parameters of the list whose names are not recorded yet (`openCount`): one less with each
  word taken, since a name recorded stays, and no more than a whole pass over the list
  comes between two words. Lists lie on each other only as they are nested in the tree.

  Proved:
  - `openCount_lt`: a parameter whose name becomes recorded is open no more.
  - `Scanning.taken_le`, `Scanning.length_le`: the words taken in a list and its turns.
  - `Nests.layers_le`, `nests_of_mem_during`: the lists on each other are no more than the
    tree has layers.
  - `scan_bounded`: all this for any list.
-/

import LineMatch.Proofs.Matching.Turns

namespace LineMatch

/-! ## Layers of a tree -/

mutual

/-- How many lists lie in each other in a parameter: its own, and those of its
    alternatives. -/
def Param.layers : Param → Nat
  | ⟨_, _, _, mode, _, _, _, params⟩ =>
    let alternatives := match mode with
      | .switch as => layers as
      | .ordinary | .subcommand _ => 0
    max alternatives (layers params + 1)

/-- The depth of a list of parameters: how many lists, itself included, lie in each other.
    An empty list has none. -/
def layers : List Param → Nat
  | [] => 0
  | p :: ps => max p.layers (layers ps)

end

variable {p node : Param} {ps : List Param}

theorem layers_le_of_mem (h : p ∈ ps) : p.layers ≤ layers ps := by
  induction ps with
  | nil => cases h
  | cons q qs ih =>
    rw [layers]
    rcases List.mem_cons.1 h with rfl | h
    · exact Nat.le_max_left _ _
    · exact Nat.le_trans (ih h) (Nat.le_max_right _ _)

theorem layers_params_lt (p : Param) : layers p.params < p.layers := by
  obtain ⟨_, _, _, mode, _, _, _, params⟩ := p
  cases mode <;> simp only [Param.layers] <;> omega

theorem layers_alternatives_le (p : Param) : layers p.alternatives ≤ p.layers := by
  obtain ⟨_, _, _, mode, _, _, _, _⟩ := p
  cases mode <;> simp only [Param.alternatives, Param.layers, layers] <;> omega

theorem layers_choice_le (h : node ∈ p.choices) : node.layers ≤ p.layers := by
  rcases List.mem_cons.1 (p.choices_subset _ h) with rfl | h
  · exact Nat.le_refl _
  · exact Nat.le_trans (layers_le_of_mem h) (layers_alternatives_le p)

/-- A list nested in a choice of a parameter has fewer layers than the list of the parameter. -/
theorem layers_nested_lt (hp : p ∈ ps) (hnode : node ∈ p.choices) : layers node.params < layers ps := by
  have hparams := layers_params_lt node
  have hchoice := layers_choice_le hnode
  have hlist := layers_le_of_mem hp
  omega

namespace Matching

/-! ## Open parameters -/

/-- The parameters whose names are not recorded. -/
def openCount (store : Store) (ps : List Param) : Nat := ps.countP fun p => !store.contains p.name

section

variable {store store' : Store} (hgrow : ∀ name, store.contains name = true → store'.contains name = true)
include hgrow

theorem openCount_le (ps : List Param) : openCount store' ps ≤ openCount store ps := by
  refine List.countP_mono_left fun p _ hopen => ?_
  rcases h : store.contains p.name with _ | _
  · rfl
  · rw [hgrow _ h] at hopen
    cases hopen

/-- A parameter whose name becomes recorded is open no more. -/
theorem openCount_lt (hp : p ∈ ps) (hnew : store.contains p.name = false)
    (hrecorded : store'.contains p.name = true) : openCount store' ps < openCount store ps := by
  induction ps with
  | nil => cases hp
  | cons q qs ih =>
    have hle := openCount_le hgrow qs
    unfold openCount at ih hle ⊢
    rw [List.countP_cons, List.countP_cons]
    rcases List.mem_cons.1 hp with rfl | hp
    · simp only [hnew, hrecorded, Bool.not_true, Bool.not_false, if_true]
      exact Nat.lt_succ_of_le hle
    · have hlt := ih hp
      rcases hq : store.contains q.name with _ | _
      · simp only [Bool.not_false, if_true]
        split <;> omega
      · simp only [hgrow _ hq, Bool.not_true]
        omega

end

namespace Setting

variable {m : Setting} {s t : State} {f g : Frame} {fs above : List Frame} {xs : List Turn} {through : Bool}

namespace Scanning

/-- A list takes no more words than it has open parameters. -/
theorem taken_le (h : m.Scanning fs f s xs through) : xs.countP m.takesIn ≤ openCount s.store f.params := by
  induction h with
  | through => exact Nat.zero_le _
  | nestedStop => exact Nat.zero_le _
  | @stop f s t p status hf hp hs =>
    -- the match stops here because no word is taken
    have htakes : m.takesIn ⟨s, f, p⟩ = false := by
      cases move_stop hs with
      | close hf' =>
        rw [hf] at hf'
        cases hf'
      | refuse hv ht _ =>
        cases hf.symm.trans hv.frames
        cases hp.symm.trans hv.stands
        simp [takesIn, ht]
    rw [List.countP_cons, htakes]
    exact Nat.zero_le _
  | @take f s t p xs through _ hp hs htakes hnew hrecorded _ ih =>
    have hlt := openCount_lt (fun _ => step_store_grows hs) (List.mem_of_getElem? hp) hnew hrecorded
    rw [Frame.take_params] at ih
    rw [List.countP_cons, if_pos htakes]
    omega
  | @pass f s t p xs through _ _ hs htakes _ _ ih =>
    have hle := openCount_le (fun _ => step_store_grows hs) f.params
    rw [List.countP_cons, htakes]
    exact Nat.le_trans ih hle
  | @nested f s t xs through _ hs _ ih =>
    exact Nat.le_trans ih (openCount_le (fun _ => step_store_grows hs) f.params)

/-- A list makes no more turns than what is left of this pass over it, and one pass for
    each open parameter. -/
theorem length_le (h : m.Scanning fs f s xs through) :
    xs.length ≤ (f.params.length - f.index) + openCount s.store f.params * f.params.length := by
  induction h with
  | through => exact Nat.zero_le _
  | nestedStop => exact Nat.zero_le _
  | stop _ hp _ =>
    have hlt := (List.getElem?_eq_some_iff.1 hp).1
    rw [List.length_singleton]
    omega
  | @take f s t p xs through _ hp hs _ hnew hrecorded _ ih =>
    have hlt := (List.getElem?_eq_some_iff.1 hp).1
    have hopen := openCount_lt (fun _ => step_store_grows hs) (List.mem_of_getElem? hp) hnew hrecorded
    have hpass := Nat.mul_le_mul_right f.params.length hopen
    rw [Nat.succ_mul] at hpass
    rw [Frame.take_params] at ih
    rw [List.length_cons]
    omega
  | @pass f s t p xs through _ hp hs _ _ _ ih =>
    have hlt := (List.getElem?_eq_some_iff.1 hp).1
    have hopen := Nat.mul_le_mul_right f.params.length (openCount_le (fun _ => step_store_grows hs) f.params)
    simp only [Frame.pass] at ih
    rw [List.length_cons]
    omega
  | @nested f s t xs through _ hs _ ih =>
    have hopen := Nat.mul_le_mul_right f.params.length (openCount_le (fun _ => step_store_grows hs) f.params)
    omega

end Scanning

/-! ## Lists on each other -/

/-- Lists on each other: the lowest is `ps`, and each other is nested in a choice of a
    parameter of the one under it. -/
inductive Nests (ps : List Param) : List Frame → Prop
  | nil : Nests ps []
  | lowest {f : Frame} : f.params = ps → Nests ps [f]
  | nested {f g : Frame} {fs : List Frame} {p node : Param} : Nests ps (f :: fs) → p ∈ f.params →
      node ∈ p.choices → g.params = node.params → Nests ps (g :: f :: fs)

namespace Nests

theorem tail (h : Nests ps (f :: fs)) : Nests ps fs := by
  cases h with
  | lowest _ => exact .nil
  | nested h _ _ _ => exact h

theorem congr (h : Nests ps (f :: fs)) (hg : g.params = f.params) : Nests ps (g :: fs) := by
  cases h with
  | lowest hf => exact .lowest (hg.trans hf)
  | nested h hp hnode hf => exact .nested h hp hnode (hg.trans hf)

theorem layers_add_le (h : Nests ps (f :: fs)) : layers f.params + fs.length ≤ layers ps := by
  generalize hfs : f :: fs = gs at h
  induction h generalizing f fs with
  | nil => cases hfs
  | lowest hf =>
    cases hfs
    rw [hf]
    exact Nat.le_refl _
  | nested h hp hnode hg ih =>
    cases hfs
    have hlt := layers_nested_lt hp hnode
    have hle := ih rfl
    rw [hg, List.length_cons]
    omega

/-- Of lists on each other those that are not empty are no more than the tree has layers. -/
theorem layers_le (h : Nests ps fs) : (fs.filter fun f => !f.params.isEmpty).length ≤ layers ps := by
  rcases fs with _ | ⟨f, fs⟩
  · exact Nat.zero_le _
  have hle := h.layers_add_le
  have hrest := List.length_filter_le (fun f : Frame => !f.params.isEmpty) fs
  rw [List.filter_cons]
  split
  · next hne =>
    rcases hparams : f.params with _ | ⟨p, qs⟩
    · rw [hparams] at hne
      cases hne
    · have hlt := layers_params_lt p
      have hlist : p.layers ≤ layers f.params := layers_le_of_mem (hparams ▸ List.mem_cons_self)
      rw [List.length_cons]
      omega
  · omega

end Nests

theorem step_nests (hf : s.frames = f :: (above ++ fs)) (hn : Nests ps (f :: above)) (h : m.step s = .go t) :
    ∃ above', t.frames = above' ++ fs ∧ Nests ps above' := by
  cases move_go h with
  | leave hs _ =>
    cases hf.symm.trans hs
    exact ⟨above, rfl, hn.tail⟩
  | skip hs _ _ =>
    cases hf.symm.trans hs
    exact ⟨_ :: above, rfl, hn.congr rfl⟩
  | pass hv _ _ =>
    cases hf.symm.trans hv.frames
    exact ⟨_ :: above, rfl, hn.congr rfl⟩
  | keep hv _ _ =>
    cases hf.symm.trans hv.frames
    exact ⟨_ :: above, rfl, hn.congr (Frame.take_params _ _)⟩
  | @take _ _ p _ _ _ hv ht _ =>
    cases hf.symm.trans hv.frames
    have hgo : Nests ps (f.take p :: above) := hn.congr (Frame.take_params _ _)
    have hp : p ∈ (f.take p).params := by
      rw [Frame.take_params]
      exact List.mem_of_getElem? hv.stands
    exact ⟨_ :: _ :: above, rfl, hgo.nested hp (taker_some ht).1 rfl⟩

theorem nests_of_mem_during (hf : s.frames = above ++ fs) (hnests : Nests ps above) (ht : t ∈ m.during fs.length s) :
    ∃ above', t.frames = above' ++ fs ∧ Nests ps above' := by
  induction s using run_induction (m := m) generalizing above with
  | stop s status u hs =>
    rcases above with _ | ⟨f, above⟩
    · have hf : s.frames = fs := hf
      rw [during_of_le (Nat.le_of_eq (congrArg List.length hf))] at ht
      cases ht
    · have hn : fs.length < s.frames.length := by
        rw [hf, List.length_append, List.length_cons]
        omega
      rw [during_of_stop hs hn] at ht
      cases List.mem_singleton.1 ht
      exact ⟨_, hf, hnests⟩
  | go s u hs ih =>
    rcases above with _ | ⟨f, above⟩
    · have hf : s.frames = fs := hf
      rw [during_of_le (Nat.le_of_eq (congrArg List.length hf))] at ht
      cases ht
    · have hn : fs.length < s.frames.length := by
        rw [hf, List.length_append, List.length_cons]
        omega
      rw [during_of_go hs hn] at ht
      rcases List.mem_cons.1 ht with rfl | ht
      · exact ⟨_, hf, hnests⟩
      · obtain ⟨above', hu, hnu⟩ := step_nests hf hnests hs
        exact ih hu hnu ht

/-! ## Any list -/

/-- A list `ps` is scanned on the lists `fs`, whatever came before, and whatever names its
    parameters have. It takes no more words than it has parameters, and makes no more turns
    than that many passes over it and one more. While it is scanned the lists on `fs` that
    are not empty are no more than the tree of `ps` has layers. The match comes to an end. -/
theorem scan_bounded (m : Setting) (ps : List Param) (fs : List Frame) (cursor : Nat) (store candidates : Store)
    (calls : List Scope) :
    let s : State := ⟨⟨ps, 0, 0⟩ :: fs, cursor, store, candidates, calls⟩
    let turns := m.turns fs.length s
    turns.countP m.takesIn ≤ ps.length ∧ turns.length ≤ ps.length * (ps.length + 1) ∧
      (∀ t ∈ m.during fs.length s, ∃ above, t.frames = above ++ fs ∧
        (above.filter fun f => !f.params.isEmpty).length ≤ layers ps) ∧
      ∃ t, m.Reach s t ∧ ∃ status last, m.step t = .stop status last := by
  intro s turns
  have hs : s.frames = [] ++ ⟨ps, 0, 0⟩ :: fs := rfl
  have hlowest : s.frames = [⟨ps, 0, 0⟩] ++ fs := rfl
  obtain ⟨through, h⟩ := scanning m hs
  have hopen : openCount store ps ≤ ps.length := List.countP_le_length
  refine ⟨Nat.le_trans h.taken_le hopen, ?_, ?_, ?_⟩
  · have hlength : turns.length ≤ ps.length + openCount store ps * ps.length := h.length_le
    have hpasses := Nat.mul_le_mul_right ps.length hopen
    rw [Nat.mul_succ]
    omega
  · intro t ht
    obtain ⟨above, hframes, hn⟩ := nests_of_mem_during hlowest (.lowest rfl) ht
    exact ⟨above, hframes, hn.layers_le⟩
  · obtain ⟨t, hr, hstop⟩ := exists_stop m s
    exact ⟨t, hr, _, _, hstop⟩

end Setting

open Matching.Sample Setting in
/-- `5 fast 2` is scanned in three turns, two of which take a word, and in two lists on each
    other, as many as `tune` has layers. -/
theorem tune_bounded :
    let m := tuning.plain (unquoted ["5", "fast", "2"])
    let first := start tune.params 0 .empty
    ((m.turns 0 first).length = 3 ∧ (m.turns 0 first).countP m.takesIn = 2 ∧ layers tune.params = 2) ∧
      (m.turns 0 first).length ≤ 2 * 3 ∧
      ∀ t ∈ m.during 0 first, ∃ above, t.frames = above ++ [] ∧
        (above.filter fun f => !f.params.isEmpty).length ≤ layers tune.params := by
  intro m first
  obtain ⟨-, hlength, hlists, -⟩ := scan_bounded m tune.params [] 0 .empty .empty []
  exact ⟨by decide +kernel, hlength, hlists⟩

end Matching

end LineMatch
