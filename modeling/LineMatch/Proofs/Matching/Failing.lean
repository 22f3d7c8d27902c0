/-
  LineMatch.Proofs.Matching.Failing — where a match fails, and why.

  A match fails at one of two places: at a mandatory parameter that takes no word, in
  whichever list, or at the end of all lists with words left over that the command has no
  parameter for. The cursor tells the first two failures apart: behind the last word, or at
  a word. A plain match leaves each word that it takes behind, so all that was visited with
  the cursor where it is at the end refused the word there.

  Proved:
  - `step_suffix`, `exists_begun`: a step begins a list at its first place or finds it there,
    so each list being scanned was begun on the way.
  - `stuckAt`: the mandatory parameter at which the match stops took no word in the scan.
  - `Visits.refuses`: what takes no word where one is there is recorded, or each of its
    choices that applies rejects the word.
  - `failing_status`: what each failing status says of the match of a list.
-/

import LineMatch.Proofs.Matching.Errors
import LineMatch.Proofs.Matching.Trials
import LineMatch.Proofs.Matching.Turns

namespace LineMatch.Matching.Setting

variable {m : Setting} {first s t u : State} {f : Frame} {fs : List Frame} {p q : Param} {ps : List Param}
  {ts : List Token} {status : Status}

/-! ## The beginning of a list -/

theorem suffix_of_params_eq {g h : Frame} {gs : List Frame} (hparams : h.params = g.params)
    (hsuffix : f :: fs <:+ h :: gs) : ∃ e : Frame, f.params = e.params ∧ e :: fs <:+ g :: gs := by
  rcases List.suffix_cons_iff.1 hsuffix with heq | hunder
  · cases heq
    exact ⟨g, hparams, List.suffix_refl _⟩
  · exact ⟨f, rfl, hunder.trans (List.suffix_cons _ _)⟩

/-- A list that is being scanned after a step was so before, or the step begins it. -/
theorem step_suffix (h : m.step s = .go t) (hsuffix : f :: fs <:+ t.frames) :
    t.frames = ⟨f.params, 0, 0⟩ :: fs ∨ ∃ g : Frame, f.params = g.params ∧ g :: fs <:+ s.frames := by
  cases move_go h with
  | leave hf _ =>
    rw [hf]
    exact .inr ⟨f, rfl, List.IsSuffix.trans hsuffix (List.suffix_cons _ _)⟩
  | skip hf _ _ =>
    rw [hf]
    exact .inr (suffix_of_params_eq (h := Frame.pass _) rfl hsuffix)
  | take hv _ _ =>
    rcases List.suffix_cons_iff.1 hsuffix with heq | hunder
    · cases heq
      exact .inl rfl
    · rw [hv.frames]
      exact .inr (suffix_of_params_eq (Frame.take_params _ _) hunder)
  | keep hv _ _ =>
    rw [hv.frames]
    exact .inr (suffix_of_params_eq (Frame.take_params _ _) hsuffix)
  | pass hv _ _ =>
    rw [hv.frames]
    exact .inr (suffix_of_params_eq (h := Frame.pass _) rfl hsuffix)

/-- The list `f`, which lies on `fs`, was begun on the way, and is being scanned since. -/
def Begun (m : Setting) (first t : State) (f : Frame) (fs : List Frame) : Prop :=
  ∃ s, m.Reach first s ∧ s.frames = ⟨f.params, 0, 0⟩ :: fs ∧ t ∈ m.during fs.length s

theorem exists_begun (hfirst : first.frames = [⟨ps, 0, 0⟩]) (hr : m.Reach first t) (hsuffix : f :: fs <:+ t.frames) :
    m.Begun first t f fs := by
  induction hr generalizing f with
  | refl =>
    have hlen := hsuffix.length_le
    rw [hfirst] at hsuffix
    rcases List.suffix_cons_iff.1 hsuffix with heq | hnil
    · cases heq
      exact ⟨_, .refl _, hfirst, mem_during_self hlen⟩
    · cases List.suffix_nil.1 hnil
  | @step t u hr hu ih =>
    rcases step_suffix hu hsuffix with hbegins | ⟨g, hg, hbefore⟩
    · exact ⟨u, .step hr hu, hbegins, mem_during_self hsuffix.length_le⟩
    · obtain ⟨s, hs, hframes, ht⟩ := ih hbefore
      exact ⟨s, hs, hg ▸ hframes, mem_during_step ht hu hsuffix.length_le⟩

/-! ## A mandatory parameter without a word -/

/-- The mandatory parameter `p` applies and is visited at `t`. In the scan of its list, from
    the state at which this was begun, it takes no word. -/
structure StuckAt (m : Setting) (first t : State) (p : Param) : Prop where
  mandatory : p.isOptional = false
  scan : ∃ f fs s, m.Visits t f fs p ∧ m.Reach first s ∧ s.frames = ⟨f.params, 0, 0⟩ :: fs ∧
    ⟨t, f, p⟩ ∈ m.turns fs.length s ∧ ∀ x ∈ m.turns fs.length s, x.frame.index = f.index → m.takesIn x = false

theorem stuckAt (hfirst : first.frames = [⟨ps, 0, 0⟩]) (hr : m.Reach first t) (hv : m.Visits t f fs p)
    (hstop : m.step t = .stop status u) (ht : (m.taker t p).1 = none) (ho : p.isOptional = false) :
    m.StuckAt first t p := by
  have hsuffix : f :: fs <:+ t.frames := hv.frames.symm ▸ List.suffix_refl (f :: fs)
  obtain ⟨s, hs, hframes, hduring⟩ := exists_begun hfirst hr hsuffix
  have hmem := hv.mem_turns hduring
  refine ⟨ho, f, fs, s, hv, hs, hframes, hmem, ?_⟩
  intro x hx hindex
  have hframes' : s.frames = [] ++ ⟨f.params, 0, 0⟩ :: fs := hframes
  obtain ⟨through, h⟩ := scanning m hframes'
  obtain ⟨ys, hys⟩ := h.exists_concat hmem hstop
  have hfenced := h.fenced (Nat.le_refl _)
  rw [hys] at hx hfenced
  rcases List.mem_append.1 hx with hbefore | hlast
  · -- the parameter is a fence: had it taken a word there were no turn at its place since
    obtain ⟨-, -, -, hstands⟩ := h.mem (hys ▸ List.mem_append_left _ hbefore)
    have hparam : x.param = p := by
      rw [hindex, hv.stands] at hstands
      exact (Option.some.inj hstands).symm
    rcases htakes : m.takesIn x with _ | _
    · rfl
    · have hlt := (List.pairwise_append.1 hfenced).2.2 x hbefore _ (List.mem_singleton.2 rfl) htakes
        (hparam ▸ Param.isFence_of_mandatory ho)
      exact absurd hindex (Nat.ne_of_lt hlt)
  · cases List.mem_singleton.1 hlast
    simp [takesIn, ht]

/-! ## Words refused -/

/-- The parameter is recorded already, or each of its choices that applies was tried on the
    word under the cursor and rejected it. -/
def Refuses (m : Setting) (s : State) (p : Param) : Prop :=
  s.store.contains p.name = true ∨ ∀ q ∈ p.choices, m.applies s q = true →
    ∃ x ∈ m.trials s, x.node = q ∧ m.outcome x = none

theorem Visits.refuses (h : m.Visits s f fs p) (hw : (m.word? s).isSome = true) (ht : (m.taker s p).1 = none) :
    m.Refuses s p := by
  rcases hold : s.store.contains p.name with _ | _
  · obtain ⟨word, hword⟩ := Option.isSome_iff_exists.1 hw
    have htrials : m.trials s = m.trialsOf s p word p.choices s.calls := by
      rw [h.trials, trialsFor, hword]
      simp only [hold]
      rfl
    have hnone : m.lastOutcome (m.trials s) = none := by
      rw [h.trials, ← ht, taker_eq]
    refine .inr fun q hq ha => ?_
    rw [htrials] at hnone ⊢
    exact (m.tries s p word p.choices s.calls).exists_refused hnone hq ha
  · exact .inl hold

/-- Where words taken are left behind, what is visited while the cursor stays takes none. -/
theorem Visits.taker_eq_none (h : m.Visits s f fs p) (htarget : m.target = none) (hr : m.Reach s t)
    (hne : s ≠ t) (hcursor : t.cursor = s.cursor) : (m.taker s p).1 = none := by
  rcases ht : m.taker s p with ⟨_ | ⟨node, value⟩, calls⟩
  · rfl
  · have htakes : m.Takes s ⟨p, node, value⟩ := ⟨f, fs, calls, h, ht, keepsWord_of_no_target htarget⟩
    rcases htakes.cursor_lt hr with heq | hlt
    · exact absurd heq hne
    · omega

/-! ## Failing statuses -/

theorem close_ne_incomplete : (m.close s).1 ≠ .incomplete := by
  unfold close
  split
  · exact nofun
  · dsimp only
    split <;> exact nofun
  · dsimp only
    split <;> exact nofun

theorem cursor_le_close : s.cursor ≤ (m.close s).2.cursor := by
  unfold close
  split
  · exact Nat.le_refl _
  · exact Nat.le_refl _
  · dsimp only
    split
    · next hlt => exact Nat.le_of_lt hlt
    · exact Nat.le_refl _

theorem cursor_le_finish (hr : m.Reach s t) : t.cursor ≤ (m.finish s).2.cursor := by
  obtain ⟨u, hu, hstop⟩ := exists_stop m t
  rw [finish_eq_of_reach hr]
  refine Nat.le_trans hu.cursor_le ?_
  rcases hfinish : m.finish t with ⟨status, v⟩
  rw [hfinish] at hstop
  cases move_stop hstop with
  | close _ => exact cursor_le_close
  | refuse _ _ _ => exact Nat.le_refl _

/-- A match that fails before all lists are through fails at a mandatory parameter; whether
    there is a word under the cursor makes the status. -/
theorem exists_stuckAt (hfirst : first.frames = [⟨ps, 0, 0⟩])
    (hstatus : (m.finish first).1 = .incomplete ∨ (m.finish first).1 = .illegalParam) :
    ∃ t f fs p, m.Reach first t ∧ m.step t = .stop (m.finish first).1 (m.finish first).2 ∧ m.StuckAt first t p ∧
      m.Visits t f fs p ∧ (m.taker t p).1 = none ∧ t.cursor = (m.finish first).2.cursor ∧
      (m.finish first).1 = if (m.word? t).isSome then .illegalParam else .incomplete := by
  obtain ⟨t, hr, hstop⟩ := exists_stop m first
  rcases hfinish : m.finish first with ⟨status, u⟩
  rw [hfinish] at hstop hstatus
  have hstop' := hstop
  cases move_stop hstop with
  | close _ =>
    rcases hstatus with h | h
    · exact absurd h close_ne_incomplete
    · exact absurd h close_ne_illegalParam
  | @refuse f fs p calls hv ht ho =>
    have hnone := congrArg Prod.fst ht
    exact ⟨t, f, fs, p, hr, hstop', stuckAt hfirst hr hv hstop' hnone ho, hv, hnone, rfl, rfl⟩

/-- The command is illegal only where all lists are through and a word is left over. -/
theorem left_over_of_illegalCommand (h : (m.finish s).1 = .illegalCommand) :
    m.Reach s (m.finish s).2 ∧ (m.finish s).2.frames = [] ∧ m.command.args = none ∧
      (m.finish s).2.cursor < m.words.length := by
  obtain ⟨t, hr, hf, hclose⟩ := exists_close (.inr h)
  rw [hclose] at h ⊢
  obtain ⟨htakes, hargs, hlt⟩ := close_eq_illegalCommand h
  rw [close_of_args_eq_none htakes hargs hlt]
  exact ⟨hr, hf, hargs, hlt⟩

/-- What was visited since the cursor stood at the word left over refused it. -/
theorem refuses_of_illegalCommand (htarget : m.target = none) (h : (m.finish s).1 = .illegalCommand)
    (hr : m.Reach s t) (hv : m.Visits t f fs p) (hcursor : t.cursor = (m.finish s).2.cursor) : m.Refuses t p := by
  obtain ⟨hlast, hframes, -, hlt⟩ := left_over_of_illegalCommand h
  have hne : t ≠ (m.finish s).2 := by
    intro heq
    rw [← heq, hv.frames] at hframes
    cases hframes
  have hbehind : m.Reach t (m.finish s).2 := by
    rcases hr.linear hlast with hbehind | hbefore
    · exact hbehind
    · exact absurd (hbefore.eq_of_stop (step_close hframes)).symm hne
  exact hv.refuses (word?_isSome_of_lt (hcursor ▸ hlt)) (hv.taker_eq_none htarget hbehind hne hcursor.symm)

/-- The plain match of the words `ts` from the word at `cursor` on: words are only left
    behind, and never more than there are. Where the match is incomplete the cursor is
    behind the last word, and a mandatory parameter, in whichever list, applies and took no
    word in the scan of this list. Where a parameter is illegal the cursor is at a word, and
    the mandatory parameter under the index of the list being scanned applies and refuses
    it. Where the command is illegal the cursor is at a word, the command has no parameter
    for the rest, each mandatory parameter of the list took a word or did not apply when it
    was last visited, and all that was visited since the word before refused the word. -/
theorem failing_status (m : Setting) (ps : List Param) (ts : List Token) (cursor : Nat) (store : Store)
    (hcursor : cursor ≤ ts.length) :
    let r := m.plain ts
    let first := start ps cursor store
    let status := (r.finish first).1
    let last := (r.finish first).2
    (∀ t u, r.Reach first t → r.Reach t u → t.cursor ≤ u.cursor ∧ u.cursor ≤ last.cursor) ∧
      last.cursor ≤ ts.length ∧
      (status = .incomplete → last.cursor = ts.length ∧
        ∃ t p, r.Reach first t ∧ r.step t = .stop .incomplete last ∧ r.StuckAt first t p) ∧
      (status = .illegalParam → last.cursor < ts.length ∧
        ∃ t p, r.Reach first t ∧ r.step t = .stop .illegalParam last ∧ t.cursor = last.cursor ∧
          r.StuckAt first t p ∧ r.Refuses t p) ∧
      (status = .illegalCommand → last.cursor < ts.length ∧ m.command.args = none ∧
        (∀ i p, ps[i]? = some p → p.isOptional = false → r.SettledAt (r.turns 0 first) last i p) ∧
        ∀ t f fs p, r.Reach first t → r.Visits t f fs p → t.cursor = last.cursor → r.Refuses t p) := by
  intro r first status last
  have hfirst : first.frames = [⟨ps, 0, 0⟩] := rfl
  have hlast : last.cursor ≤ ts.length := finish_cursor_le_length (m := r) hcursor
  refine ⟨fun t u ht htu => ⟨htu.cursor_le, cursor_le_finish (ht.trans htu)⟩, hlast, ?_, ?_, ?_⟩
  · intro hstatus
    obtain ⟨t, f, fs, p, hr, hstop, hstuck, -, -, htlast, hword⟩ := exists_stuckAt hfirst (.inl hstatus)
    refine ⟨?_, t, p, hr, hstatus ▸ hstop, hstuck⟩
    refine Nat.le_antisymm hlast (Nat.le_of_not_lt fun hlt => ?_)
    rw [if_pos (word?_isSome_of_lt (m := r) (htlast ▸ hlt))] at hword
    exact absurd (hstatus.symm.trans hword) nofun
  · intro hstatus
    obtain ⟨t, f, fs, p, hr, hstop, hstuck, hv, hnone, htlast, hword⟩ := exists_stuckAt hfirst (.inr hstatus)
    have hsome : (r.word? t).isSome = true := by
      rcases hw : (r.word? t).isSome with _ | _
      · rw [hw] at hword
        exact absurd (hstatus.symm.trans hword) nofun
      · rfl
    refine ⟨?_, t, p, hr, hstatus ▸ hstop, htlast, hstuck, hv.refuses hsome hnone⟩
    exact htlast ▸ lt_of_word?_isSome hsome
  · intro hstatus
    obtain ⟨hr, hframes, hargs, hlt⟩ := left_over_of_illegalCommand hstatus
    refine ⟨hlt, hargs, ?_, fun t f fs p ht hv hc => refuses_of_illegalCommand rfl hstatus ht hv hc⟩
    intro i p hp hmandatory
    have hs : first.frames = [] ++ ⟨ps, 0, 0⟩ :: [] := hfirst
    obtain ⟨through, h⟩ := scanning r hs
    have hthrough := h.through_of_reach hr (Nat.le_of_eq (congrArg List.length hframes))
    subst hthrough
    exact h.settledAt (Nat.le_refl _) hr hframes (Nat.zero_le i) hp hmandatory

open Matching.Sample in
/-- No words at all leave the `disk` out, `x` is no `disk`, and in `3 x` it is left over. -/
theorem mount_failing :
    let first := start mount.params 0 .empty
    (∃ t p, (mounting.plain []).StuckAt first t p) ∧
      (∃ t p, (mounting.plain (unquoted ["x"])).StuckAt first t p ∧ (mounting.plain (unquoted ["x"])).Refuses t p) ∧
      (let r := mounting.plain (unquoted ["3", "x"])
        let last := (r.finish first).2
        last.cursor = 1 ∧ r.SettledAt (r.turns 0 first) last 0 { name := "disk", type := "NUM" } ∧
          ∀ t f fs p, r.Reach first t → r.Visits t f fs p → t.cursor = last.cursor → r.Refuses t p) := by
  intro first
  refine ⟨?_, ?_, ?_⟩
  · obtain ⟨-, -, hincomplete, -, -⟩ := failing_status mounting mount.params [] 0 .empty (by decide)
    obtain ⟨-, t, p, -, -, hstuck⟩ := hincomplete (by decide +kernel)
    exact ⟨t, p, hstuck⟩
  · obtain ⟨-, -, -, hparam, -⟩ := failing_status mounting mount.params (unquoted ["x"]) 0 .empty (by decide)
    obtain ⟨-, t, p, -, -, -, hstuck, hrefuses⟩ := hparam (by decide +kernel)
    exact ⟨t, p, hstuck, hrefuses⟩
  · obtain ⟨-, -, -, -, hcommand⟩ := failing_status mounting mount.params (unquoted ["3", "x"]) 0 .empty (by decide)
    obtain ⟨-, -, hsettled, hrefuse⟩ := hcommand (by decide +kernel)
    exact ⟨by decide +kernel, hsettled 0 _ rfl rfl, hrefuse⟩

end LineMatch.Matching.Setting
