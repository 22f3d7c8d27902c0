/-
  LineMatch.Proofs.Matching.Nodes — all that a match can record or offer.

  `nodes ps` are the parameters of a list with their alternatives, so all that a scan of
  the list can record or offer; `allNodes ps` are these and those of the lists nested in
  them, at any depth. Where all of them have names of their own, the lists being scanned
  at one time have no name in common, though each is nested in a parameter of the next.

  Proved:
  - `nodes_append_sublist`: a list nested in a choice of a parameter adds its nodes to
    those of the list that the parameter stands in.
  - `Tidy.step`: the lists being scanned stay apart and without tests, and each but the
    innermost stands at its floor.
  - `settled_of_cursor_lt`: where a word has just been left behind so does the innermost.
-/

import LineMatch.Proofs.Matching.Accounting

namespace LineMatch

/-- The parameters of a list, each with its alternatives. -/
def nodes (ps : List Param) : List Param := ps.flatMap fun p => p :: p.alternatives

theorem weights_params_lt (p : Param) : weights p.params < p.weight := by
  obtain ⟨_, _, _, mode, _, _, _, params⟩ := p
  have hsq : 0 < (params.length + 1) * (params.length + 1) := Nat.mul_pos (Nat.succ_pos _) (Nat.succ_pos _)
  cases mode <;> simp only [Param.weight] <;> omega

/-- The nodes of a list and of all lists nested in it. -/
def allNodes (ps : List Param) : List Param :=
  nodes ps ++ (ps.flatMap Param.choices).attach.flatMap fun q => allNodes q.1.params
termination_by weights ps
decreasing_by
  obtain ⟨p, hp, hq⟩ := List.mem_flatMap.1 q.2
  have hnested := weights_params_lt q.1
  have hchoice := Matching.weight_choice_le hq
  have hlist := weight_le_weights hp
  omega

theorem allNodes_eq (ps : List Param) :
    allNodes ps = nodes ps ++ (ps.flatMap Param.choices).flatMap fun q => allNodes q.params := by
  rw [allNodes]
  simp

theorem nodes_append (ps qs : List Param) : nodes (ps ++ qs) = nodes ps ++ nodes qs := List.flatMap_append

theorem nodes_drop_sublist (n : Nat) (ps : List Param) : (nodes (ps.drop n)).Sublist (nodes ps) := by
  have h := nodes_append (ps.take n) (ps.drop n)
  rw [List.take_append_drop] at h
  rw [h]
  exact List.sublist_append_right _ _

theorem nodes_sublist_allNodes (ps : List Param) : (nodes ps).Sublist (allNodes ps) := by
  rw [allNodes_eq]
  exact List.sublist_append_left _ _

/-- A list nested in a choice of a parameter adds its nodes to those of the list that the
    parameter stands in. -/
theorem nodes_append_sublist {ps : List Param} {p node : Param} (hp : p ∈ ps) (hnode : node ∈ p.choices) :
    (nodes ps ++ allNodes node.params).Sublist (allNodes ps) := by
  rw [allNodes_eq ps, List.flatMap_def]
  refine (List.sublist_flatten_of_mem ?_).append_left _
  exact List.mem_map.2 ⟨node, List.mem_flatMap.2 ⟨p, hp, hnode⟩, rfl⟩

namespace Matching

/-! ## The lists being scanned -/

/-- The nodes of the lists being scanned. -/
def onStack (fs : List Frame) : List Param := fs.flatMap fun f => nodes f.params

/-- Each list has no name in common with those it is nested in, nor has any list nested
    in it. -/
def Apart : List Frame → Prop
  | [] => True
  | f :: fs => ((allNodes f.params ++ onStack fs).map Param.name).Nodup ∧ Apart fs

variable {f g : Frame} {fs : List Frame} {p node : Param}

theorem Apart.congr (h : Apart (f :: fs)) (hg : g.params = f.params) : Apart (g :: fs) := by
  unfold Apart at h ⊢
  rwa [hg]

theorem Apart.push (h : Apart (f :: fs)) (hp : p ∈ f.params) (hnode : node ∈ p.choices) (hg : g.params = f.params) :
    Apart (⟨node.params, 0, 0⟩ :: g :: fs) := by
  refine ⟨?_, h.congr hg⟩
  have hsub : (nodes f.params ++ allNodes node.params ++ onStack fs).Sublist (allNodes f.params ++ onStack fs) :=
    (nodes_append_sublist hp hnode).append_right _
  have hperm : (nodes f.params ++ allNodes node.params ++ onStack fs).Perm
      (allNodes node.params ++ onStack (g :: fs)) := by
    have hcons : onStack (g :: fs) = nodes f.params ++ onStack fs := by
      rw [← hg]
      exact List.flatMap_cons
    rw [hcons, ← List.append_assoc]
    exact List.perm_append_comm.append_right _
  exact (hperm.map _).nodup ((hsub.map _).nodup h.1)

theorem Apart.onStack_nodup (h : Apart fs) : ((onStack fs).map Param.name).Nodup := by
  cases fs with
  | nil => exact List.nodup_nil
  | cons f fs =>
    rw [onStack, List.flatMap_cons]
    exact (((nodes_sublist_allNodes f.params).append_right _).map _).nodup h.1

/-! ## What a run keeps -/

namespace Setting

variable {m : Setting} {s t : State}

/-- The lists being scanned are apart and without tests, and each but the innermost stands
    at its floor. -/
structure Tidy (s : State) : Prop where
  apart : Apart s.frames
  untested : ∀ f ∈ s.frames, ∀ q ∈ allNodes f.params, q.test = none
  settled : ∀ f ∈ s.frames.tail, f.index = f.floor

/-- Where a list goes on from another place. -/
theorem Tidy.go_on (h : Tidy s) (hf : s.frames = f :: fs) (ht : t.frames = g :: fs)
    (hg : g.params = f.params) : Tidy t where
  apart := by
    rw [ht]
    exact (hf ▸ h.apart).congr hg
  untested := by
    rw [ht]
    have hall : ∀ k ∈ f :: fs, ∀ q ∈ allNodes k.params, q.test = none := hf ▸ h.untested
    exact List.forall_mem_cons.2 ⟨hg ▸ (List.forall_mem_cons.1 hall).1, (List.forall_mem_cons.1 hall).2⟩
  settled := by
    have htail := h.settled
    rw [hf] at htail
    rw [ht]
    exact htail

theorem Tidy.step (h : Tidy s) (hs : m.step s = .go t) : Tidy t := by
  cases move_go hs with
  | leave hf _ =>
    have happ := h.apart
    have htail := h.settled
    rw [hf] at happ htail
    refine ⟨happ.2, fun k hk => h.untested k (by rw [hf]; exact List.mem_cons_of_mem _ hk), fun k hk => ?_⟩
    exact htail k (List.mem_of_mem_tail hk)
  | skip hf _ _ => exact h.go_on hf rfl rfl
  | pass hv _ _ => exact h.go_on hv.frames rfl rfl
  | keep hv _ _ => exact h.go_on hv.frames rfl (Frame.take_params _ _)
  | @take f fs p node value calls hv ht _ =>
    have hp : p ∈ f.params := List.mem_of_getElem? hv.stands
    have hnode : node ∈ p.choices := (taker_some ht).1
    have happ := h.apart
    have htail := h.settled
    rw [hv.frames] at happ htail
    have hgo : Tidy { s with frames := f.take p :: fs } := h.go_on hv.frames rfl (Frame.take_params _ _)
    refine ⟨happ.push hp hnode (Frame.take_params _ _), List.forall_mem_cons.2 ⟨fun q hq => ?_, hgo.untested⟩,
      List.forall_mem_cons.2 ⟨Frame.take_settled _ _, htail⟩⟩
    have hmem := (nodes_append_sublist hp hnode).mem (List.mem_append_right _ hq)
    exact h.untested f (by rw [hv.frames]; exact List.mem_cons_self) q hmem

/-- Where a word has just been left behind every list stands at its floor. -/
theorem settled_of_cursor_lt (h : Tidy s) (hs : m.step s = .go t) (hlt : s.cursor < t.cursor) :
    ∀ f ∈ t.frames, f.index = f.floor := by
  cases move_go hs with
  | take hv _ _ =>
    have htail := h.settled
    rw [hv.frames] at htail
    exact List.forall_mem_cons.2 ⟨rfl, List.forall_mem_cons.2 ⟨Frame.take_settled _ _, htail⟩⟩
  | _ => exact absurd hlt (Nat.lt_irrefl _)

theorem tidy_start {ps : List Param} (htests : ∀ q ∈ allNodes ps, q.test = none)
    (hnames : ((allNodes ps).map Param.name).Nodup) (cursor : Nat) (store : Store) :
    Tidy (start ps cursor store) where
  apart := by
    refine ⟨?_, trivial⟩
    rw [onStack, List.flatMap_nil, List.append_nil]
    exact hnames
  untested := fun f hf => by
    rw [List.mem_singleton.1 hf]
    exact htests
  settled := nofun

end Setting

end Matching

end LineMatch
