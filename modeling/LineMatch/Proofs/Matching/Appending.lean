/-
  LineMatch.Proofs.Matching.Appending — whether what is recorded stays.

  A parameter whose name is recorded takes no word, so what is recorded for a parameter
  of a list has a new name. Two other names are recorded without a look at what is there:
  that of the alternative through which a switch takes a word, and that of the parameter
  for words left over. Where one of them is there already its entry is replaced.

  Proved:
  - `appends_iff`: a step adds entries at the end and keeps the others just where the
    alternative, or the parameter for words left over, has a new name.
  - `prefix_of_appends`: what is recorded stays to the end where every step does so.
  - `appends_of_tellsApart`: every step does so if the command's names tell its
    alternatives and its parameter for words left over apart from the others.
  - `recorded_stays`: all this on a line.
  - `speed_recorded_again`: an alternative of two switches, whose first value is lost.
-/

import LineMatch.Proofs.Matching.Inserts
import LineMatch.Proofs.Matching.Nodes

namespace LineMatch

/-! ## The parameters in lists -/

/-- The parameter stands in a list that a match of `ps` can come to. -/
inductive Listed (ps : List Param) : Param → Prop
  | here {p : Param} : p ∈ ps → Listed ps p
  | nested {p node q : Param} : Listed ps p → node ∈ p.choices → q ∈ node.params → Listed ps q

/-- Parameters that hold the list and, with each, those nested in its choices hold all
    that a match can come to. -/
theorem Listed.mem {ps known : List Param} {p : Param} (h : Listed ps p) (hps : ∀ q ∈ ps, q ∈ known)
    (hnested : ∀ q ∈ known, ∀ node ∈ q.choices, ∀ r ∈ node.params, r ∈ known) : p ∈ known := by
  induction h with
  | here hp => exact hps _ hp
  | nested _ hnode hq ih => exact hnested _ ih _ hnode _ hq

/-- The names of a command tell the alternatives of its switches apart from the rest of
    its lists. -/
structure Command.TellsAlternatives (c : Command) : Prop where
  /-- No alternative has the name of a parameter in a list. -/
  alternative : ∀ p q, Listed c.params p → Listed c.params q → ∀ a ∈ p.alternatives, a.name ≠ q.name
  /-- Alternatives of one name belong to switches of one name. -/
  switch : ∀ p q, Listed c.params p → Listed c.params q → ∀ a ∈ p.alternatives, ∀ b ∈ q.alternatives,
    a.name = b.name → p.name = q.name

/-- The parameter of a command for words left over has a name of its own. -/
structure Command.TellsRest (c : Command) : Prop where
  rest : ∀ args p, c.args = some args → Listed c.params p →
    args.name ≠ p.name ∧ ∀ a ∈ p.alternatives, args.name ≠ a.name

/-- The names of a command tell its parameters apart as far as a match does not. -/
structure Command.TellsApart (c : Command) : Prop extends c.TellsAlternatives, c.TellsRest

namespace Matching.Setting

variable {m : Setting} {s t : State} {f : Frame} {fs : List Frame} {p node : Param} {value name : String}
  {calls : List Scope} {ps : List Param} {x : Taken} {c : Command}

/-- The lists being scanned hold nothing but what a match of `ps` can come to. -/
def ScansListed (ps : List Param) (s : State) : Prop := ∀ f ∈ s.frames, ∀ p ∈ f.params, Listed ps p

theorem Visits.listed (h : ScansListed ps s) (hv : m.Visits s f fs p) : Listed ps p := by
  refine h f ?_ p (List.mem_of_getElem? hv.stands)
  rw [hv.frames]
  exact List.mem_cons_self

/-- A list that goes on has the parameters it had. -/
theorem ScansListed.go_on {g : Frame} (h : ScansListed ps s) (hf : s.frames = f :: fs) (hg : g.params = f.params) :
    ∀ k ∈ g :: fs, ∀ q ∈ k.params, Listed ps q := by
  intro k hk q hq
  rcases List.mem_cons.1 hk with rfl | hk
  · exact h f (by rw [hf]; exact List.mem_cons_self) q (hg ▸ hq)
  · exact h k (by rw [hf]; exact List.mem_cons_of_mem _ hk) q hq

theorem step_scansListed (h : ScansListed ps s) (hs : m.step s = .go t) : ScansListed ps t := by
  cases move_go hs with
  | leave hf _ => exact fun k hk => h k (by rw [hf]; exact List.mem_cons_of_mem _ hk)
  | skip hf _ _ => exact h.go_on hf rfl
  | pass hv _ _ => exact h.go_on hv.frames rfl
  | keep hv _ _ => exact h.go_on hv.frames (Frame.take_params _ _)
  | take hv ht _ =>
    obtain ⟨-, -, -, hnode, -⟩ := taker_spec ht
    refine List.forall_mem_cons.2 ⟨fun q hq => ?_, h.go_on hv.frames (Frame.take_params _ _)⟩
    exact .nested (hv.listed h) hnode hq

theorem Reach.scansListed (h : m.Reach s t) (hs : ScansListed ps s) : ScansListed ps t :=
  h.keeps (P := ScansListed ps) (fun _ _ ht hu => step_scansListed ht hu) hs

theorem scansListed_start (ps : List Param) (cursor : Nat) (store : Store) :
    ScansListed ps (start ps cursor store) := by
  intro f hf p hp
  rw [List.mem_singleton.1 hf] at hp
  exact .here hp

/-! ## Steps that add at the end -/

/-- The step at `s` adds what it records after the entries that are there, and changes
    none of these. -/
def Appends (m : Setting) (s : State) : Prop :=
  (m.step s).state.store.entries = s.store.entries ++ Store.entriesOf (m.recordings s)

theorem appends_iff_new : m.Appends s ↔
    ((m.recordings s).map fun x => x.1.name).Nodup ∧ ∀ x ∈ m.recordings s, s.store.contains x.1.name = false := by
  rw [Appends, step_store]
  exact Store.insertAll_appends_iff

theorem appends_of_recordings_eq_nil (h : m.recordings s = []) : m.Appends s := by
  rw [appends_iff_new, h]
  exact ⟨List.nodup_nil, nofun⟩

/-- Where a word is taken it is the name of the alternative that counts. -/
theorem Takes.appends_iff (hx : m.Takes s x) (hrec : m.recordings s = x.inserts) : m.Appends s ↔
    (x.param.isSwitch = true → x.node.name ≠ x.param.name ∧ s.store.contains x.node.name = false) := by
  obtain ⟨f, fs, calls, hv, ht, -⟩ := hx
  obtain ⟨hnode, hnew⟩ := taker_some ht
  rw [appends_iff_new, hrec, Taken.inserts]
  rcases hp : x.param.isSwitch with _ | _
  · rw [Param.choices_of_not_isSwitch hp] at hnode
    simp [List.mem_singleton.1 hnode, hnew]
  · simp [hnew, eq_comm (a := x.param.name)]

theorem close_appends_iff (hf : s.frames = []) : m.Appends s ↔
    (m.folds s = true → ∀ args, m.command.args = some args → s.store.contains args.name = false) := by
  rw [appends_iff_new, (inserts_of_close hf).1, foldings]
  rcases hfolds : m.folds s with _ | _
  · simp
  · rcases ha : m.command.args with _ | args <;> simp

/-- A step of a match without a target adds at the end just where it records no name over
    again: neither that of an alternative nor that of the parameter for words left over. -/
theorem appends_iff (htarget : m.target = none) : m.Appends s ↔
    (∀ x, m.Takes s x → x.param.isSwitch = true →
      x.node.name ≠ x.param.name ∧ s.store.contains x.node.name = false) ∧
      (s.frames = [] → m.folds s = true → ∀ args, m.command.args = some args →
        s.store.contains args.name = false) := by
  by_cases hf : s.frames = []
  · have hno : ∀ x, ¬ m.Takes s x := by
      rintro x ⟨f, fs, calls, hv, -⟩
      rw [hv.frames] at hf
      cases hf
    rw [close_appends_iff hf]
    exact ⟨fun h => ⟨fun x hx => absurd hx (hno x), fun _ => h⟩, fun h => h.2 hf⟩
  rcases takes_or_idle htarget hf with ⟨x, hx, hrec⟩ | ⟨hno, hnil⟩
  · rw [hx.appends_iff hrec]
    exact ⟨fun h => ⟨fun y hy => hy.unique hx ▸ h, fun h' => absurd h' hf⟩, fun h => h.1 x hx⟩
  · exact ⟨fun _ => ⟨fun x hx => absurd hx (hno x), fun h' => absurd h' hf⟩,
      fun _ => appends_of_recordings_eq_nil hnil⟩

/-- Where every step adds at the end, what is recorded stays to the end of the match. -/
theorem prefix_of_appends (h : ∀ t, m.Reach s t → m.Appends t) :
    s.store.entries <+: (m.finish s).2.store.entries := by
  induction s using run_induction (m := m) with
  | stop s status t hs =>
    have happ := h s (.refl s)
    rw [Appends, hs] at happ
    rw [finish_of_stop hs]
    exact ⟨_, happ.symm⟩
  | go s t hs ih =>
    have happ := h s (.refl s)
    rw [Appends, hs] at happ
    rw [finish_of_go hs]
    exact List.IsPrefix.trans ⟨_, happ.symm⟩ (ih fun u hu => h u (.head hs hu))

/-! ## Commands whose names tell their parameters apart -/

/-- Each name recorded is that of a parameter recorded or of one of its alternatives. -/
def Recorded (ps : List Param) (s : State) : Prop :=
  ∀ name, s.store.contains name = true → ∃ p, Listed ps p ∧ s.store.contains p.name = true ∧
    (name = p.name ∨ ∃ a ∈ p.alternatives, name = a.name)

theorem recorded_record (hp : Listed ps p) (hnode : node ∈ p.choices) (h : Recorded ps s) :
    Recorded ps { s with store := s.store.record p node value } := by
  intro name hname
  have hnew : (s.store.record p node value).contains p.name = true := contains_record hnode
  rcases (contains_record_iff hnode).1 hname with rfl | hold
  · rcases List.mem_cons.1 (p.choices_subset node hnode) with rfl | ha
    · exact ⟨node, hp, hnew, .inl rfl⟩
    · exact ⟨p, hp, hnew, .inr ⟨node, ha, rfl⟩⟩
  rcases hold with rfl | hold
  · exact ⟨p, hp, hnew, .inl rfl⟩
  · obtain ⟨q, hq, hrecorded, hname⟩ := h name hold
    exact ⟨q, hq, Store.contains_record_of_contains hrecorded, hname⟩

theorem step_recorded (hl : ScansListed ps s) (h : Recorded ps s) (hs : m.step s = .go t) : Recorded ps t := by
  cases move_go hs with
  | take hv ht _ => exact recorded_record (hv.listed hl) (taker_some ht).1 h
  | keep hv ht _ => exact recorded_record (hv.listed hl) (taker_some ht).1 h
  | _ => exact h

theorem Reach.recorded (h : m.Reach s t) (hl : ScansListed ps s) (hs : Recorded ps s) : Recorded ps t :=
  (h.keeps (P := fun t => ScansListed ps t ∧ Recorded ps t)
    (fun _ _ ht hu => ⟨step_scansListed ht.1 hu, step_recorded ht.1 ht.2 hu⟩) ⟨hl, hs⟩).2

/-- Where the names tell them apart an alternative is new as long as its switch is. -/
theorem alternative_new (hc : c.TellsAlternatives) (hr : Recorded c.params s) (hp : Listed c.params p)
    (hnode : node ∈ p.alternatives) (hnew : s.store.contains p.name = false) : s.store.contains node.name = false := by
  refine Bool.eq_false_iff.2 fun hold => ?_
  obtain ⟨q, hq, hrecorded, hname | ⟨b, hb, hname⟩⟩ := hr _ hold
  · exact hc.alternative _ _ hp hq _ hnode hname
  · rw [hc.switch _ _ hp hq _ hnode _ hb hname, hrecorded] at hnew
    cases hnew

/-- And the parameter for words left over is new as long as lists are scanned. -/
theorem rest_new (hc : c.TellsRest) (hr : Recorded c.params s) {args : Param} (ha : c.args = some args) :
    s.store.contains args.name = false := by
  refine Bool.eq_false_iff.2 fun hold => ?_
  obtain ⟨q, hq, -, hname | ⟨b, hb, hname⟩⟩ := hr _ hold
  · exact (hc.rest args q ha hq).1 hname
  · exact (hc.rest args q ha hq).2 b hb hname

theorem appends_of_tellsApart (htarget : m.target = none) (hc : m.command.TellsApart)
    (hl : ScansListed m.command.params s) (hr : Recorded m.command.params s) : m.Appends s := by
  refine (appends_iff htarget).2 ⟨fun x hx hswitch => ?_, fun _ _ args ha => rest_new hc.toTellsRest hr ha⟩
  obtain ⟨f, fs, calls, hv, ht, -⟩ := hx
  obtain ⟨hnode, hnew⟩ := taker_some ht
  rw [Param.choices_of_isSwitch hswitch] at hnode
  have hp := hv.listed hl
  exact ⟨hc.alternative _ _ hp hp _ hnode, alternative_new hc.toTellsAlternatives hr hp hnode hnew⟩

/-- What the match of a line records stays. Every step adds its entries after those that
    are there if and only if, each time, an alternative that takes a word has a new name
    and not that of its switch, and words left over are folded for a parameter with a new
    name; and then each entry keeps its place, its parameter and its value to the end. A
    command whose names tell these parameters apart from the others has no other matches. -/
theorem recorded_stays (session : Session) (run : Executor) (line : String) (c : Command) :
    let m := session.setting run c (tokens line) none
    let first := start c.params c.wordCount .empty
    ((∀ t, m.Reach first t → m.Appends t) ↔ ∀ t, m.Reach first t →
      (∀ x, m.Takes t x → x.param.isSwitch = true →
        x.node.name ≠ x.param.name ∧ t.store.contains x.node.name = false) ∧
      (t.frames = [] → m.folds t = true → ∀ args, c.args = some args → t.store.contains args.name = false)) ∧
      ((∀ t, m.Reach first t → m.Appends t) →
        ∀ t, m.Reach first t → t.store.entries <+: (m.finish first).2.store.entries) ∧
      (c.TellsApart → ∀ t, m.Reach first t → m.Appends t) := by
  intro m first
  refine ⟨?_, fun h t hr => ?_, fun hc t hr => ?_⟩
  · exact forall_congr' fun t => forall_congr' fun _ => appends_iff (m := m) rfl
  · rw [finish_eq_of_reach hr]
    exact prefix_of_appends fun u hu => h u (hr.trans hu)
  · have hl : ScansListed c.params first := scansListed_start _ _ _
    exact appends_of_tellsApart rfl hc (hr.scansListed hl) (hr.recorded hl nofun)

end Matching.Setting

/-! ## Two commands to try -/

namespace Matching.Sample

theorem tune_listed {p : Param} (h : Listed tune.params p) :
    p ∈ tune.params ++ [{ name := "depth", type := "NUM" }] :=
  h.mem (fun _ hq => List.mem_append_left _ hq) (by simp [tune, Param.choices])

theorem tune_tellsApart : tune.TellsApart where
  alternative p q hp hq := by
    have hp := tune_listed hp
    have hq := tune_listed hq
    simp only [tune, List.cons_append, List.nil_append, List.mem_cons, List.not_mem_nil, or_false] at hp hq
    rcases hp with rfl | rfl | rfl <;> rcases hq with rfl | rfl | rfl <;> simp [Param.alternatives]
  switch p q hp hq := by
    have hp := tune_listed hp
    have hq := tune_listed hq
    simp only [tune, List.cons_append, List.nil_append, List.mem_cons, List.not_mem_nil, or_false] at hp hq
    rcases hp with rfl | rfl | rfl <;> rcases hq with rfl | rfl | rfl <;> simp [Param.alternatives]
  rest args p ha hp := by
    cases ha
    have hp := tune_listed hp
    simp only [tune, List.cons_append, List.nil_append, List.mem_cons, List.not_mem_nil, or_false] at hp
    rcases hp with rfl | rfl | rfl <;> simp [Param.alternatives]

/-- Takes a `speed` by its first switch, and may take one by its second. -/
def doubled : Command where
  name := "go"
  params := [
    { name := "first", type := "NUM", mode := .switch [{ name := "speed", type := "NUM" }] },
    { name := "second", type := "NUM", isOptional := true, mode := .switch [{ name := "speed", type := "NUM" }] }]
  args := some { name := "rest", type := "NUM" }

def doubling : Session where
  grammar := { types := [{ name := "NUM", method := .unsignedInteger none none }], commands := [doubled] }

end Matching.Sample

namespace Matching.Setting

open Matching.Sample

/-- What is recorded on the way through `tune 5 fast 3 x` is there at the end. -/
theorem tune_recorded_stays :
    let m := tuning.scope.session.setting never tune (tokens "tune 5 fast 3 x") none
    let first := start tune.params tune.wordCount .empty
    tune.TellsApart ∧ ∀ t, m.Reach first t → t.store.entries <+: (m.finish first).2.store.entries := by
  intro m first
  obtain ⟨-, hstays, happends⟩ := recorded_stays tuning.scope.session never "tune 5 fast 3 x" tune
  exact ⟨tune_tellsApart, hstays (happends tune_tellsApart)⟩

/-- The grammar is well formed, since the two lists of alternatives are two lists. On the
    line `go 1 2`, which is accepted, the `speed` is `1` at first and `2` at the end. -/
theorem speed_recorded_again : doubling.grammar.check.isOk = true ∧
    let m := doubling.setting never doubled (tokens "go 1 2") none
    let first := start doubled.params doubled.wordCount .empty
    ∃ t, m.Reach first t ∧ t.store.value? "speed" = some "1" ∧
      (m.finish first).1 = .ok ∧ (m.finish first).2.store.value? "speed" = some "2" :=
  ⟨by decide +kernel, _, reach_after _ 1 _, by decide +kernel, by decide +kernel, by decide +kernel⟩

end Matching.Setting

end LineMatch
