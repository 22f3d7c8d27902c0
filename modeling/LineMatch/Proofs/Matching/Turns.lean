/-
  LineMatch.Proofs.Matching.Turns — the scan of one list.

  A turn is one look at the parameter under the index of a list that is the innermost.
  `m.turns n s` lists the turns that the run from `s` on makes in the list with `n` lists
  under it, up to the end of that list; what happens in lists nested in it is left out. The
  index goes on by one or back to the floor, and the floor only rises: to the place behind
  a fence, a mandatory or ordered parameter, when it takes a word. So a scan never comes
  back to a fence that took a word, nor to what stands before it, and a place that the
  index has passed for good was passed at a turn.

  Proved:
  - `scanning`: the turns of a list, by what each of them does.
  - `Scanning.floor_le`, `Scanning.fenced`: no turn before the floor, and none up to a
    fence that took a word.
  - `Scanning.exists_turn`, `Scanning.settled`: where a list comes through each place has a
    turn, and a mandatory parameter takes a word at its turn or does not apply.
  - `fences_hold`: both for any list, with whatever else is being scanned.
-/

import LineMatch.Proofs.Matching.Reach

namespace LineMatch

/-- Once it took a word, a list does not go back to it or behind it. -/
def Param.isFence (p : Param) : Bool := !(p.isOptional && !p.isOrdered)

theorem Param.isFence_of_mandatory {p : Param} (h : p.isOptional = false) : p.isFence = true := by
  rw [isFence, h]
  rfl

theorem Param.isFence_of_unordered {p : Param} (ho : p.isOptional = true) (hu : p.isOrdered = false) :
    p.isFence = false := by
  rw [isFence, ho, hu]
  rfl

namespace Matching

/-- A turn: the list as it stands, and the parameter under its index. -/
structure Turn where
  state : State
  frame : Frame
  param : Param

/-- The last turn at a place. -/
def lastTurn? (xs : List Turn) (i : Nat) : Option Turn := xs.reverse.find? fun x => x.frame.index == i

theorem Frame.take_of_isFence {p : Param} (h : p.isFence = true) (f : Frame) :
    f.take p = { f with index := f.index + 1, floor := f.index + 1 } := by
  rw [Param.isFence, Bool.not_eq_true'] at h
  rw [take, h]
  rfl

theorem Frame.take_of_not_isFence {p : Param} (h : p.isFence = false) (f : Frame) :
    f.take p = { f with index := f.floor } := by
  rw [Param.isFence, Bool.not_eq_false'] at h
  rw [take, if_pos h]

/-- The floor only rises. -/
theorem Frame.floor_le_take {f : Frame} (h : f.floor ≤ f.index) (p : Param) : f.floor ≤ (f.take p).floor := by
  rcases hp : p.isFence with _ | _
  · simp [take_of_not_isFence hp]
  · simp only [take_of_isFence hp]
    omega

namespace Setting

variable {m : Setting} {s t u : State} {f g : Frame} {fs above : List Frame} {p : Param} {n i : Nat}
  {xs : List Turn} {x : Turn} {through : Bool} {status : Status}

/-! ## Turns -/

/-- The states of the run from `s` on, as long as more than `n` lists are being scanned. -/
def during (m : Setting) (n : Nat) (s : State) : List State :=
  if s.frames.length ≤ n then []
  else
    match _h : m.step s with
    | .stop _ _ => [s]
    | .go t => s :: during m n t
termination_by s.cost
decreasing_by exact step_cost _h

/-- The turn at `s`, if it is one of the list with `n` lists under it. -/
def turn? (n : Nat) (s : State) : Option Turn :=
  match s.frames with
  | [] => none
  | f :: fs => if fs.length = n then f.params[f.index]?.map (Turn.mk s f) else none

/-- The turns of the list with `n` lists under it. -/
def turns (m : Setting) (n : Nat) (s : State) : List Turn := (m.during n s).filterMap (turn? n)

/-- Whether a word is taken in a turn. -/
def takesIn (m : Setting) (x : Turn) : Bool := m.applies x.state x.param && (m.taker x.state x.param).1.isSome

theorem during_of_le (h : s.frames.length ≤ n) : m.during n s = [] := by
  rw [during, if_pos h]

theorem during_of_stop (h : m.step s = .stop status t) (hn : n < s.frames.length) : m.during n s = [s] := by
  rw [during, if_neg (Nat.not_le.2 hn)]
  split
  · rfl
  · next h' =>
    rw [h] at h'
    cases h'

theorem during_of_go (h : m.step s = .go t) (hn : n < s.frames.length) : m.during n s = s :: m.during n t := by
  rw [during, if_neg (Nat.not_le.2 hn)]
  split
  · next h' =>
    rw [h] at h'
    cases h'
  · next h' =>
    rw [h] at h'
    cases h'
    rfl

theorem mem_during_self (hn : n < s.frames.length) : s ∈ m.during n s := by
  cases hs : m.step s with
  | stop status t =>
    rw [during_of_stop hs hn]
    exact List.mem_cons_self
  | go t =>
    rw [during_of_go hs hn]
    exact List.mem_cons_self

/-- The run goes on as long as more than `n` lists are being scanned. -/
theorem mem_during_step (ht : t ∈ m.during n s) (hs : m.step t = .go u) (hn : n < u.frames.length) :
    u ∈ m.during n s := by
  induction s using run_induction (m := m) with
  | stop s status v hstop =>
    by_cases hlen : n < s.frames.length
    · rw [during_of_stop hstop hlen] at ht
      cases List.mem_singleton.1 ht
      rw [hstop] at hs
      cases hs
    · rw [during_of_le (Nat.le_of_not_lt hlen)] at ht
      cases ht
  | go s v hgo ih =>
    by_cases hlen : n < s.frames.length
    · rw [during_of_go hgo hlen] at ht ⊢
      rcases List.mem_cons.1 ht with rfl | ht
      · rw [hgo] at hs
        cases hs
        exact List.mem_cons_of_mem _ (mem_during_self hn)
      · exact List.mem_cons_of_mem _ (ih ht)
    · rw [during_of_le (Nat.le_of_not_lt hlen)] at ht
      cases ht

theorem turns_of_le (h : s.frames.length ≤ n) : m.turns n s = [] := by
  rw [turns, during_of_le h]
  rfl

theorem turns_of_stop (h : m.step s = .stop status t) (hn : n < s.frames.length) :
    m.turns n s = (turn? n s).toList := by
  rw [turns, during_of_stop h hn, List.filterMap_cons]
  cases turn? n s <;> rfl

theorem turns_of_go (h : m.step s = .go t) (hn : n < s.frames.length) :
    m.turns n s = (turn? n s).toList ++ m.turns n t := by
  rw [turns, during_of_go h hn, List.filterMap_cons]
  cases turn? n s <;> rfl

theorem turn?_of_frames (h : s.frames = f :: fs) : turn? fs.length s = f.params[f.index]?.map (Turn.mk s f) := by
  simp [turn?, h]

theorem Visits.mem_turns (h : m.Visits t f fs p) (ht : t ∈ m.during fs.length s) : ⟨t, f, p⟩ ∈ m.turns fs.length s := by
  refine List.mem_filterMap.2 ⟨t, ht, ?_⟩
  rw [turn?_of_frames h.frames, h.stands]
  rfl

/-- While a list nested in it is scanned a list makes no turn. -/
theorem turn?_of_nested (h : n + 1 < s.frames.length) : turn? n s = none := by
  unfold turn?
  split
  · rfl
  · next f fs hf =>
    rw [hf, List.length_cons] at h
    exact if_neg (by omega)

/-! ## What a step does to a list -/

/-- What a turn does: it takes a word and records the parameter, or it passes a parameter
    that does not apply or is optional. -/
theorem step_turn (hf : s.frames = f :: fs) (hp : f.params[f.index]? = some p) (h : m.step s = .go t) :
    (m.takesIn ⟨s, f, p⟩ = true ∧ s.store.contains p.name = false ∧ t.store.contains p.name = true ∧
        ∃ above, t.frames = above ++ f.take p :: fs) ∨
      (m.takesIn ⟨s, f, p⟩ = false ∧ (m.applies s p = false ∨ p.isOptional = true) ∧ t.frames = f.pass :: fs) := by
  rcases ha : m.applies s p with _ | _
  · rw [step_skip hf hp ha] at h
    cases h
    exact .inr ⟨by simp [takesIn, ha], .inl rfl, rfl⟩
  have hv : m.Visits s f fs p := ⟨hf, hp, ha⟩
  rw [hv.step_eq] at h
  rcases ht : m.taker s p with ⟨_ | ⟨node, value⟩, calls⟩
  · rcases ho : p.isOptional with _ | _
    · rw [visit_refuse ht ho] at h
      cases h
    · rw [visit_pass ht ho] at h
      cases h
      exact .inr ⟨by simp [takesIn, ht], .inr rfl, rfl⟩
  · obtain ⟨hnode, hnew⟩ := taker_some ht
    refine .inl ⟨by simp [takesIn, ha, ht], hnew, ?_⟩
    rcases hk : m.keepsWord s p with _ | _
    · rw [visit_take ht hk] at h
      cases h
      exact ⟨contains_record hnode, [_], rfl⟩
    · rw [visit_keep ht hk] at h
      cases h
      exact ⟨contains_record hnode, [], rfl⟩

/-- A step leaves the lists under the innermost as they are. -/
theorem step_frames (hf : s.frames = f :: fs) (h : m.step s = .go t) : ∃ above, t.frames = above ++ fs := by
  rcases hp : f.params[f.index]? with _ | p
  · rw [step_leave hf hp] at h
    cases h
    exact ⟨[], rfl⟩
  rcases step_turn hf hp h with ⟨-, -, -, above, ht⟩ | ⟨-, -, ht⟩
  · exact ⟨above ++ [f.take p], by rw [ht, List.append_assoc]; rfl⟩
  · exact ⟨[f.pass], ht⟩

/-! ## The turns of a list, one after the other -/

/-- From `s` on the list `f`, which lies on `fs`, makes the turns `xs`. It comes through,
    or the match stops in it or in a list nested in it. -/
inductive Scanning (m : Setting) (fs : List Frame) : Frame → State → List Turn → Bool → Prop
  | through {f : Frame} {s : State} : s.frames = f :: fs → f.params[f.index]? = none → Scanning m fs f s [] true
  | stop {f : Frame} {s t : State} {p : Param} {status : Status} : s.frames = f :: fs →
      f.params[f.index]? = some p → m.step s = .stop status t → Scanning m fs f s [⟨s, f, p⟩] false
  | take {f : Frame} {s t : State} {p : Param} {xs : List Turn} {through : Bool} : s.frames = f :: fs →
      f.params[f.index]? = some p → m.step s = .go t → m.takesIn ⟨s, f, p⟩ = true →
      s.store.contains p.name = false → t.store.contains p.name = true →
      Scanning m fs (f.take p) t xs through → Scanning m fs f s (⟨s, f, p⟩ :: xs) through
  | pass {f : Frame} {s t : State} {p : Param} {xs : List Turn} {through : Bool} : s.frames = f :: fs →
      f.params[f.index]? = some p → m.step s = .go t → m.takesIn ⟨s, f, p⟩ = false →
      (m.applies s p = false ∨ p.isOptional = true) →
      Scanning m fs f.pass t xs through → Scanning m fs f s (⟨s, f, p⟩ :: xs) through
  /-- A step in a nested list. -/
  | nested {f : Frame} {s t : State} {xs : List Turn} {through : Bool} : fs.length + 1 < s.frames.length →
      m.step s = .go t → Scanning m fs f t xs through → Scanning m fs f s xs through
  | nestedStop {f : Frame} {s t : State} {status : Status} : fs.length + 1 < s.frames.length →
      m.step s = .stop status t → Scanning m fs f s [] false

theorem scanning (m : Setting) (hf : s.frames = above ++ f :: fs) :
    ∃ through, m.Scanning fs f s (m.turns fs.length s) through := by
  induction s using run_induction (m := m) generalizing above f with
  | stop s status t hs =>
    rcases above with _ | ⟨g, above⟩
    · have hf : s.frames = f :: fs := hf
      rcases hp : f.params[f.index]? with _ | p
      · rw [step_leave hf hp] at hs
        cases hs
      · rw [turns_of_stop hs (by simp [hf]), turn?_of_frames hf, hp]
        exact ⟨false, .stop hf hp hs⟩
    · have hn : fs.length + 1 < s.frames.length := by
        rw [hf, List.length_append, List.length_cons, List.length_cons]
        omega
      rw [turns_of_stop hs (by omega), turn?_of_nested hn]
      exact ⟨false, .nestedStop hn hs⟩
  | go s t hs ih =>
    rcases above with _ | ⟨g, above⟩
    · have hf : s.frames = f :: fs := hf
      rcases hp : f.params[f.index]? with _ | p
      · have hleave := (step_leave (m := m) hf hp).symm.trans hs
        cases hleave
        rw [turns_of_go hs (by simp [hf]), turn?_of_frames hf, hp, turns_of_le (n := fs.length) (Nat.le_refl _)]
        exact ⟨true, .through hf hp⟩
      · rw [turns_of_go hs (by simp [hf]), turn?_of_frames hf, hp]
        rcases step_turn hf hp hs with ⟨htakes, hnew, hrecorded, above, ht⟩ | ⟨htakes, hpasses, ht⟩
        · obtain ⟨through, h⟩ := ih ht
          exact ⟨through, .take hf hp hs htakes hnew hrecorded h⟩
        · have ht : t.frames = [] ++ f.pass :: fs := ht
          obtain ⟨through, h⟩ := ih ht
          exact ⟨through, .pass hf hp hs htakes hpasses h⟩
    · have hn : fs.length + 1 < s.frames.length := by
        rw [hf, List.length_append, List.length_cons, List.length_cons]
        omega
      have hf : s.frames = g :: (above ++ f :: fs) := hf
      obtain ⟨above', ht⟩ := step_frames hf hs
      rw [← List.append_assoc] at ht
      obtain ⟨through, h⟩ := ih ht
      rw [turns_of_go hs (by omega), turn?_of_nested hn]
      exact ⟨through, .nested hn hs h⟩

namespace Scanning

/-- A turn is made in a state of the run, in the list, at a parameter of it. -/
theorem mem (h : m.Scanning fs f s xs through) (hx : x ∈ xs) :
    m.Reach s x.state ∧ x.state.frames = x.frame :: fs ∧ x.frame.params = f.params ∧
      f.params[x.frame.index]? = some x.param := by
  induction h with
  | through => cases hx
  | nestedStop => cases hx
  | stop hf hp _ =>
    cases List.mem_singleton.1 hx
    exact ⟨.refl _, hf, rfl, hp⟩
  | take hf hp hs _ _ _ _ ih =>
    rcases List.mem_cons.1 hx with rfl | hx
    · exact ⟨.refl _, hf, rfl, hp⟩
    · obtain ⟨hr, hframes, hparams, hstands⟩ := ih hx
      rw [Frame.take_params] at hparams hstands
      exact ⟨.head hs hr, hframes, hparams, hstands⟩
  | pass hf hp hs _ _ _ ih =>
    rcases List.mem_cons.1 hx with rfl | hx
    · exact ⟨.refl _, hf, rfl, hp⟩
    · obtain ⟨hr, hrest⟩ := ih hx
      exact ⟨.head hs hr, hrest⟩
  | nested _ hs _ ih =>
    obtain ⟨hr, hrest⟩ := ih hx
    exact ⟨.head hs hr, hrest⟩

/-- No turn is made before the floor. -/
theorem floor_le (h : m.Scanning fs f s xs through) (hle : f.floor ≤ f.index) : ∀ x ∈ xs, f.floor ≤ x.frame.index := by
  induction h with
  | through => exact nofun
  | nestedStop => exact nofun
  | stop _ _ _ => exact List.forall_mem_cons.2 ⟨hle, nofun⟩
  | @take f s t p xs through _ _ _ _ _ _ _ ih =>
    have hrest := ih (Nat.le_of_eq (f.take_settled p).symm)
    exact List.forall_mem_cons.2 ⟨hle, fun x hx => Nat.le_trans (Frame.floor_le_take hle p) (hrest x hx)⟩
  | pass _ _ _ _ _ _ ih => exact List.forall_mem_cons.2 ⟨hle, ih (Nat.le_succ_of_le hle)⟩
  | nested _ _ _ ih => exact ih hle

/-- After a fence took a word no turn is made at its place or before. -/
theorem fenced (h : m.Scanning fs f s xs through) (hle : f.floor ≤ f.index) :
    xs.Pairwise fun x y => m.takesIn x = true → x.param.isFence = true → x.frame.index < y.frame.index := by
  induction h with
  | through => exact .nil
  | nestedStop => exact .nil
  | stop _ _ _ => exact List.pairwise_singleton _ _
  | @take f s t p xs through _ _ _ _ _ _ hrest ih =>
    have hle' := Nat.le_of_eq (f.take_settled p).symm
    refine List.pairwise_cons.2 ⟨?_, ih hle'⟩
    intro y hy _ hfence
    have hy := hrest.floor_le hle' y hy
    rw [Frame.take_of_isFence hfence] at hy
    exact hy
  | pass _ _ _ htakes _ _ ih =>
    refine List.pairwise_cons.2 ⟨?_, ih (Nat.le_succ_of_le hle)⟩
    intro y _ htakes'
    rw [htakes] at htakes'
    cases htakes'
  | nested _ _ _ ih => exact ih hle

/-- Where the list comes through there is a turn at each place from the index on. -/
theorem exists_turn (h : m.Scanning fs f s xs through) (hthrough : through = true) (hle : f.floor ≤ f.index)
    (hi : f.index ≤ i) (hlt : i < f.params.length) : ∃ x ∈ xs, x.frame.index = i := by
  induction h with
  | through _ hnone =>
    have := List.getElem?_eq_none_iff.1 hnone
    omega
  | nestedStop => cases hthrough
  | stop => cases hthrough
  | @take f s t p xs through _ _ _ _ _ _ _ ih =>
    have hsettled := f.take_settled p
    by_cases heq : f.index = i
    · exact ⟨_, List.mem_cons_self, heq⟩
    -- the index goes on by one or back to the floor, so it does not leave `i` behind
    have hindex : (f.take p).index ≤ i := by
      rcases hp : p.isFence with _ | _
      · rw [Frame.take_of_not_isFence hp]
        exact Nat.le_trans hle hi
      · rw [Frame.take_of_isFence hp]
        show f.index + 1 ≤ i
        omega
    obtain ⟨x, hx, hxi⟩ := ih hthrough (Nat.le_of_eq hsettled.symm) hindex (by rw [Frame.take_params]; exact hlt)
    exact ⟨x, List.mem_cons_of_mem _ hx, hxi⟩
  | @pass f s t p xs through _ _ _ _ _ _ ih =>
    by_cases heq : f.index = i
    · exact ⟨_, List.mem_cons_self, heq⟩
    obtain ⟨x, hx, hxi⟩ := ih hthrough (Nat.le_succ_of_le hle) (by show f.index + 1 ≤ i; omega) hlt
    exact ⟨x, List.mem_cons_of_mem _ hx, hxi⟩
  | nested _ _ _ ih => exact ih hthrough hle hi hlt

/-- Where the list comes through a mandatory parameter takes a word at each of its turns,
    unless it does not apply. -/
theorem settled (h : m.Scanning fs f s xs through) (hthrough : through = true) (hx : x ∈ xs)
    (hmandatory : x.param.isOptional = false) : m.takesIn x = true ∨ m.applies x.state x.param = false := by
  induction h with
  | through => cases hx
  | nestedStop => cases hx
  | stop => cases hthrough
  | take _ _ _ htakes _ _ _ ih =>
    rcases List.mem_cons.1 hx with rfl | hx
    · exact .inl htakes
    · exact ih hthrough hx
  | pass _ _ _ _ hpasses _ ih =>
    rcases List.mem_cons.1 hx with rfl | hx
    · rcases hpasses with ha | ho
      · exact .inr ha
      · rw [hmandatory] at ho
        cases ho
    · exact ih hthrough hx
  | nested _ _ _ ih => exact ih hthrough hx

theorem reach_through (h : m.Scanning fs f s xs through) (hthrough : through = true) :
    ∃ t, m.Reach s t ∧ t.frames = fs := by
  induction h with
  | through hf hp => exact ⟨_, .step (.refl _) (step_leave hf hp), rfl⟩
  | nestedStop => cases hthrough
  | stop => cases hthrough
  | take _ _ hs _ _ _ _ ih =>
    obtain ⟨t, hr, ht⟩ := ih hthrough
    exact ⟨t, .head hs hr, ht⟩
  | pass _ _ hs _ _ _ ih =>
    obtain ⟨t, hr, ht⟩ := ih hthrough
    exact ⟨t, .head hs hr, ht⟩
  | nested _ hs _ ih =>
    obtain ⟨t, hr, ht⟩ := ih hthrough
    exact ⟨t, .head hs hr, ht⟩

/-- Where the match stops in the list, no state is reached behind it. -/
theorem length_lt (h : m.Scanning fs f s xs through) (hthrough : through = false) (hr : m.Reach s t) :
    fs.length < t.frames.length := by
  induction h with
  | through => cases hthrough
  | stop hf _ hs =>
    rw [← hr.eq_of_stop hs, hf]
    exact Nat.lt_succ_self _
  | nestedStop hn hs =>
    rw [← hr.eq_of_stop hs]
    omega
  | take hf _ hs _ _ _ _ ih =>
    rcases hr.next hs with rfl | hr
    · rw [hf]
      exact Nat.lt_succ_self _
    · exact ih hthrough hr
  | pass hf _ hs _ _ _ ih =>
    rcases hr.next hs with rfl | hr
    · rw [hf]
      exact Nat.lt_succ_self _
    · exact ih hthrough hr
  | nested hn hs _ ih =>
    rcases hr.next hs with rfl | hr
    · omega
    · exact ih hthrough hr

/-- The turn at which the match stops is the last. -/
theorem exists_concat (h : m.Scanning fs f s xs through) (hx : x ∈ xs) (hstop : m.step x.state = .stop status t) :
    ∃ ys, xs = ys ++ [x] := by
  have hgoes : ∀ {s u : State} {f : Frame} {p : Param}, m.step s = .go u → x ≠ ⟨s, f, p⟩ := by
    rintro s u f p hs rfl
    rw [hs] at hstop
    cases hstop
  induction h with
  | through => cases hx
  | nestedStop => cases hx
  | stop _ _ _ =>
    cases List.mem_singleton.1 hx
    exact ⟨[], rfl⟩
  | take _ _ hs _ _ _ _ ih =>
    obtain ⟨ys, rfl⟩ := ih ((List.mem_cons.1 hx).resolve_left (hgoes hs))
    exact ⟨_ :: ys, rfl⟩
  | pass _ _ hs _ _ _ ih =>
    obtain ⟨ys, rfl⟩ := ih ((List.mem_cons.1 hx).resolve_left (hgoes hs))
    exact ⟨_ :: ys, rfl⟩
  | nested _ _ _ ih => exact ih hx

/-- A state behind the list comes after each of its turns. -/
theorem reach_of_mem (h : m.Scanning fs f s xs through) (hx : x ∈ xs) (hr : m.Reach s t) (ht : t.frames = fs) :
    m.Reach x.state t := by
  have hbehind : ∀ {s : State} {f : Frame}, s.frames = f :: fs → s ≠ t := by
    rintro s f hf rfl
    rw [ht] at hf
    exact absurd (congrArg List.length hf) (Nat.ne_of_lt (Nat.lt_succ_self _))
  induction h with
  | through => cases hx
  | nestedStop => cases hx
  | stop _ _ _ =>
    cases List.mem_singleton.1 hx
    exact hr
  | take hf _ hs _ _ _ _ ih =>
    rcases List.mem_cons.1 hx with rfl | hx
    · exact hr
    · exact ih hx ((hr.next hs).resolve_left (hbehind hf))
  | pass hf _ hs _ _ _ ih =>
    rcases List.mem_cons.1 hx with rfl | hx
    · exact hr
    · exact ih hx ((hr.next hs).resolve_left (hbehind hf))
  | nested hn hs _ ih =>
    rcases hr.next hs with rfl | hr
    · rw [ht] at hn
      omega
    · exact ih hx hr

/-- What took a word in the list is recorded behind it. -/
theorem recorded (h : m.Scanning fs f s xs through) (hx : x ∈ xs) (htakes : m.takesIn x = true)
    (hr : m.Reach s t) (ht : t.frames = fs) : t.store.contains x.param.name = true := by
  obtain ⟨-, hframes, hparams, hstands⟩ := h.mem hx
  rw [← hparams] at hstands
  rcases (h.reach_of_mem hx hr ht).cases_head with heq | ⟨u, hu, hut⟩
  · rw [heq, ht] at hframes
    exact absurd (congrArg List.length hframes) (Nat.ne_of_lt (Nat.lt_succ_self _))
  rcases step_turn hframes hstands hu with ⟨-, -, hrecorded, -⟩ | ⟨htakes', -, -⟩
  · exact hut.store_grows hrecorded
  · rw [htakes] at htakes'
    cases htakes'

end Scanning

/-! ## Mandatory parameters -/

theorem lastTurn?_of_mem (hx : x ∈ xs) (hi : x.frame.index = i) :
    ∃ y ∈ xs, lastTurn? xs i = some y ∧ y.frame.index = i := by
  have hsome : (lastTurn? xs i).isSome = true :=
    List.find?_isSome.2 ⟨x, List.mem_reverse.2 hx, beq_iff_eq.2 hi⟩
  obtain ⟨y, hy⟩ := Option.isSome_iff_exists.1 hsome
  refine ⟨y, List.mem_reverse.1 (List.mem_of_find?_eq_some hy), hy, ?_⟩
  exact beq_iff_eq.1 (List.find?_some (p := fun x : Turn => x.frame.index == i) hy)

/-- At its last turn the parameter at the place `i` took a word, and it is recorded at `t`,
    or it did not apply. -/
def SettledAt (m : Setting) (xs : List Turn) (t : State) (i : Nat) (p : Param) : Prop :=
  ∃ x, lastTurn? xs i = some x ∧ x.param = p ∧
    ((m.takesIn x = true ∧ t.store.contains p.name = true) ∨ m.applies x.state p = false)

theorem Scanning.settledAt (h : m.Scanning fs f s xs true) (hle : f.floor ≤ f.index) (hr : m.Reach s t)
    (ht : t.frames = fs) (hi : f.index ≤ i) (hp : f.params[i]? = some p) (hmandatory : p.isOptional = false) :
    m.SettledAt xs t i p := by
  obtain ⟨x, hx, hxi⟩ := h.exists_turn rfl hle hi (List.getElem?_eq_some_iff.1 hp).1
  obtain ⟨y, hy, hlast, hyi⟩ := lastTurn?_of_mem hx hxi
  obtain ⟨-, -, -, hstands⟩ := h.mem hy
  rw [hyi, hp] at hstands
  cases hstands
  refine ⟨y, hlast, rfl, ?_⟩
  rcases h.settled rfl hy hmandatory with htakes | ha
  · exact .inl ⟨htakes, h.recorded hy htakes hr ht⟩
  · exact .inr ha

/-- Where a state behind the list is reached, or the match ends well, the list comes through. -/
theorem Scanning.through_of_reach (h : m.Scanning fs f s xs through) (hr : m.Reach s t)
    (ht : t.frames.length ≤ fs.length) : through = true := by
  rcases through with _ | _
  · have := h.length_lt rfl hr
    omega
  · rfl

theorem Scanning.through_of_ok (h : m.Scanning fs f s xs through) (hok : (m.finish s).1 = .ok) : through = true := by
  obtain ⟨t, hr, hf, -⟩ := exists_close (.inl hok)
  refine h.through_of_reach hr ?_
  rw [hf]
  exact Nat.zero_le _

/-- A list `ps` is scanned on the lists `fs`, whatever came before. Each turn is made in a
    state of the run, at a parameter of the list. After one at which a mandatory or ordered
    parameter takes a word there is none at its place or before. If the match ends well the
    list comes through; and where it does, each mandatory parameter took a word at its last
    turn, and is recorded then, or its test did not hold there. -/
theorem fences_hold (m : Setting) (ps : List Param) (fs : List Frame) (cursor : Nat) (store candidates : Store)
    (calls : List Scope) :
    let s : State := ⟨⟨ps, 0, 0⟩ :: fs, cursor, store, candidates, calls⟩
    let turns := m.turns fs.length s
    (∀ x ∈ turns, m.Reach s x.state ∧ x.state.frames = x.frame :: fs ∧ ps[x.frame.index]? = some x.param) ∧
      turns.Pairwise (fun x y => m.takesIn x = true → x.param.isFence = true → x.frame.index < y.frame.index) ∧
      ((m.finish s).1 = .ok → ∃ t, m.Reach s t ∧ t.frames = fs) ∧
      ∀ t, m.Reach s t → t.frames = fs → ∀ i p, ps[i]? = some p → p.isOptional = false → m.SettledAt turns t i p := by
  intro s turns
  have hs : s.frames = [] ++ ⟨ps, 0, 0⟩ :: fs := rfl
  obtain ⟨through, h⟩ := scanning m hs
  refine ⟨?_, h.fenced (Nat.le_refl _), ?_, ?_⟩
  · intro x hx
    obtain ⟨hr, hframes, -, hstands⟩ := h.mem hx
    exact ⟨hr, hframes, hstands⟩
  · intro hok
    exact h.reach_through (h.through_of_ok hok)
  · intro t hr ht i p hp hmandatory
    have hthrough := h.through_of_reach hr (Nat.le_of_eq (congrArg _ ht))
    subst hthrough
    exact h.settledAt (Nat.le_refl _) hr ht (Nat.zero_le i) hp hmandatory

end Setting

/-! ## A command with flags -/

namespace Sample

/-- Takes a `disk`, maybe a `slot` for it, and flags: `force` before the `slot` alone, the
    others anywhere behind `disk`. -/
def mount : Command where
  name := "mount"
  params := [
    { name := "disk", type := "NUM" },
    { name := "force", type := "KW", mode := .subcommand "force", isOptional := true },
    { name := "slot", type := "NUM", isOptional := true, isOrdered := true },
    { name := "quiet", type := "KW", mode := .subcommand "quiet", isOptional := true },
    { name := "sync", type := "KW", mode := .subcommand "sync", isOptional := true }]

def mounting : Setting where
  run := never
  scope := { session := { grammar := {
    types := [{ name := "NUM", method := .unsignedInteger none none },
      { name := "KW", method := .select ["force", "quiet", "sync"] }]
    commands := [mount] } } }
  command := mount
  words := unquoted ["3", "sync", "force", "1"]

end Sample

open Matching.Sample Setting in
/-- In `3 sync force 1` the scan goes back to `force` twice, and once the `slot` is taken it
    does not come back to it. -/
theorem mount_fences :
    let first := start mount.params 0 .empty
    let turns := mounting.turns 0 first
    turns.map (fun x => x.frame.index) = [0, 1, 2, 3, 4, 1, 1, 2, 3, 4] ∧
      turns.Pairwise (fun x y => mounting.takesIn x = true → x.param.isFence = true →
        x.frame.index < y.frame.index) ∧
      ∃ t, mounting.Reach first t ∧ t.frames = [] ∧
        ∀ i p, mount.params[i]? = some p → p.isOptional = false → mounting.SettledAt turns t i p := by
  intro first turns
  obtain ⟨-, hfenced, hthrough, hsettled⟩ := fences_hold mounting mount.params [] 0 .empty .empty []
  obtain ⟨t, hr, ht⟩ := hthrough (by decide +kernel)
  exact ⟨by decide +kernel, hfenced, t, hr, ht, hsettled t hr ht⟩

end Matching

end LineMatch
