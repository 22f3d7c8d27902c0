/-
  LineMatch.Proofs.Grammar.Readable — what a grammar that was read keeps to.

  Reading bounds how deep parameters nest, what a switch has and how large the bounds of
  types are. `Readable` says so of parameters, types, commands and grammars, for the levels
  that were left to read them.

  Proved:
  - `ensures_param`, `ensures_type`, `ensures_command`: each reader gives what is readable.
  - `readable_of_read`: so a grammar that was read is.
-/

import LineMatch.Grammar.Load
import LineMatch.Proofs.Json.Ensures

namespace LineMatch

open LineMatch.Json
open LineMatch.Json.Read

/-! ## Members that may be missing -/

section

variable {α : Type} {P : α → Prop}

theorem forall_mem_getD_nil {o : Option (List α)} (h : ∀ xs ∈ o, ∀ x ∈ xs, P x) :
    ∀ x ∈ o.getD [], P x := by
  cases o with
  | none => nofun
  | some xs => exact h xs rfl

theorem forall_mem_getD_none {o : Option (Option α)} (h : ∀ x ∈ o, ∀ a ∈ x, P a) :
    ∀ a ∈ o.getD none, P a := by
  cases o with
  | none => nofun
  | some x => exact h x rfl

end

/-! ## Parameters -/

namespace Param

/-- The parameters nested in a parameter. -/
def children (p : Param) : List Param := p.alternatives ++ p.params

/-- A switch has alternatives, and nothing else is nested in it. -/
def SwitchRule (p : Param) : Prop := ∀ as, p.mode = .switch as → as ≠ [] ∧ p.params = []

/-- A parameter that can be read with some levels left: nested ones stand two levels below. -/
def Readable : Nat → Param → Prop
  | 0, _ => False
  | 1, p => p.SwitchRule ∧ p.children = []
  | levels + 2, p => p.SwitchRule ∧ ∀ q ∈ p.children, Readable levels q

variable {P : Param → Prop} {levels : Nat} {nested : Read Param}

/-- The nested parameters of a draft satisfy `P`. -/
def Draft.All (P : Param → Prop) (d : Draft) : Prop :=
  (∀ as ∈ d.alternatives, ∀ q ∈ as, P q) ∧ ∀ ps ∈ d.params, ∀ q ∈ ps, P q

theorem ensures_nested (h : Ensures nested P) : Ensures (list levels fun _ => nested) fun ps => ∀ q ∈ ps, P q :=
  ensures_list h

theorem ensures_draftMember (h : Ensures nested P) (d : Draft) (name : String) (hd : d.All P) :
    Ensures (Draft.member levels nested d name) (Draft.All P) := by
  unfold Draft.member
  split
  case h_9 => exact (ensures_once (ensures_nested h)).bind fun _ ho => .pure ⟨ho, hd.2⟩
  case h_10 => exact (ensures_once (ensures_nested h)).bind fun _ ho => .pure ⟨hd.1, ho⟩
  all_goals exact .after fun _ => .pure hd

theorem ensures_ofArray (h : Ensures nested P) : Ensures (ofArray levels nested) fun m => m.draft.All P := by
  refine .after fun name => ?_
  split
  · exact ensures_refuse
  refine .after fun help => .after fun type => ?_
  split
  · exact ensures_refuse
  refine .after fun mode => .after fun isOptional => .after fun isOrdered => .after fun test => .after fun value => ?_
  refine (ensures_position (ensures_nested h)).bind fun alternatives ha => ?_
  exact (ensures_position (ensures_nested h)).bind fun params hp => .pure ⟨ha, hp⟩

theorem modeOf_switch {name : String} {tag : ModeTag} {value : Option String} {as ps bs : List Param}
    (h : modeOf name tag value as ps = .ok (.switch bs)) : bs = as ∧ as ≠ [] ∧ ps = [] := by
  cases tag with
  | ordinary =>
    simp only [modeOf] at h
    split at h <;> cases h
  | switch =>
    simp only [modeOf] at h
    split at h
    · cases h
    next has =>
    split at h
    · cases h
    next hps =>
    cases h
    exact ⟨rfl, by simpa using has, by simpa using hps⟩
  | subcommand => cases h

theorem complete_eq {m : Flat} {p : Param} (h : m.complete = .ok p) : ∃ mode,
    modeOf m.name (m.draft.mode.getD .ordinary) (m.draft.value.getD none) (m.draft.alternatives.getD [])
      (m.draft.params.getD []) = .ok mode ∧
    p = ⟨m.name, m.draft.help.getD none, m.type, mode, m.draft.isOptional.getD false, m.draft.isOrdered.getD false,
      m.draft.test.getD none, m.draft.params.getD []⟩ := by
  rw [Flat.complete] at h
  rcases hmode : modeOf m.name (m.draft.mode.getD .ordinary) (m.draft.value.getD none)
    (m.draft.alternatives.getD []) (m.draft.params.getD []) with e | mode
  · rw [hmode] at h
    cases h
  · rw [hmode] at h
    cases h
    exact ⟨mode, rfl, rfl⟩

/-- A complete parameter keeps to the rules and has nested what its draft has. -/
theorem complete_ok {m : Flat} {p : Param} (hm : m.draft.All P) (h : m.complete = .ok p) :
    p.SwitchRule ∧ ∀ q ∈ p.children, P q := by
  have halternatives := forall_mem_getD_nil hm.1
  have hparams := forall_mem_getD_nil hm.2
  obtain ⟨mode, hmode, rfl⟩ := complete_eq h
  refine ⟨?_, ?_⟩
  · rintro as rfl
    obtain ⟨rfl, hne, hps⟩ := modeOf_switch hmode
    exact ⟨hne, hps⟩
  · intro q hq
    rcases List.mem_append.1 hq with hq | hq
    · cases mode with
      | ordinary => cases hq
      | subcommand => cases hq
      | switch as =>
        obtain ⟨rfl, -⟩ := modeOf_switch hmode
        exact halternatives q hq
    · exact hparams q hq

theorem ensures_readAt (h : Ensures nested P) :
    Ensures (readAt levels nested) fun p => levels ≠ 0 ∧ p.SwitchRule ∧ ∀ q ∈ p.children, P q := by
  have hflat : Ensures (record levels "struct RawParam"
      (fun inner => do (← object {} (Draft.member inner nested)).finish)
      (fun inner => ofArray inner nested)) fun m => levels ≠ 0 ∧ m.draft.All P := by
    refine ensures_record (fun n hn => ?_) fun n hn => ?_
    · have hempty : Draft.All P {} := ⟨nofun, nofun⟩
      refine (ensures_object hempty (ensures_draftMember h)).bind fun d hd => ?_
      exact .after fun name => .after fun type => .pure ⟨by omega, hd⟩
    · exact (ensures_ofArray h).mono fun m hm => ⟨by omega, hm⟩
  refine hflat.bind fun m hm => ?_
  split
  · next p hp => exact .pure ⟨hm.1, complete_ok hm.2 hp⟩
  · exact ensures_refuse

/-- What is read with some levels left can be read again with as many. -/
theorem ensures_param (levels : Nat) : Ensures (read levels) (Readable levels) := by
  have hnone : Ensures (failNext .tooDeep : Read Param) fun _ => False := ensures_failNext
  induction levels using Nat.strongRecOn with
  | ind levels ih =>
    match levels with
    | 0 => exact (ensures_readAt hnone).mono fun p hp => hp.1 rfl
    | 1 => exact (ensures_readAt hnone).mono fun p hp =>
        ⟨hp.2.1, List.eq_nil_iff_forall_not_mem.2 hp.2.2⟩
    | n + 2 => exact (ensures_readAt (ih n (by omega))).mono fun p hp => hp.2

end Param

/-! ## Values that are judged -/

namespace Judge

variable {α β σ τ : Type} {v : Value} {known : Option α} {name : String}

theorem bind_ok {x : Judge α} {f : α → Judge β} {b : β} :
    (x >>= f) = .ok b ↔ ∃ a, x = .ok a ∧ f a = .ok b := by
  cases x with
  | error => exact ⟨nofun, nofun⟩
  | ok a => exact ⟨fun h => ⟨a, rfl, h⟩, fun ⟨_, ha, hb⟩ => by cases ha; exact hb⟩

theorem once_ok {value : Judge α} {o : Option α} (h : once known name value = .ok o) :
    ∀ a ∈ o, value = .ok a := by
  rw [once] at h
  split at h
  · cases h
  · rcases value with e | a
    · cases h
    · cases h
      rintro b ⟨⟩
      rfl

theorem orNull_ok {judge : Value → Judge α} {o : Option α} (h : orNull judge v = .ok o) :
    ∀ a ∈ o, judge v = .ok a := by
  unfold orNull at h
  split at h
  · cases h
    nofun
  · obtain ⟨a, ha, h⟩ := bind_ok.1 h
    cases h
    rintro b ⟨⟩
    exact ha

theorem signed_ok {i : Int} (hv : v.InRange) (h : signed v = .ok i) :
    Number.minSigned ≤ i ∧ i ≤ Number.maxSigned := by
  unfold signed at h
  split at h
  · next n =>
    split at h
    · next hle =>
      cases h
      simp only [Number.minSigned, Number.maxSigned, Int.ofNat_eq_natCast] at hle ⊢
      omega
    · cases h
  · next n =>
    cases h
    have hn : 0 < n ∧ n ≤ 9223372036854775808 := hv
    simp only [Number.minSigned, Number.maxSigned, Int.ofNat_eq_natCast]
    omega
  · cases h

theorem unsigned_ok {n : Nat} (hv : v.InRange) (h : unsigned v = .ok n) : n ≤ Number.maxUnsigned := by
  unfold unsigned at h
  split at h
  · cases h
    exact hv
  · cases h
  · cases h

/-- What every step keeps holds after all of them. -/
theorem foldlM_ok {I : σ → Prop} {f : σ → τ → Judge σ} {xs : List τ} {d e : σ}
    (hstep : ∀ x ∈ xs, ∀ d e, I d → f d x = .ok e → I e) (hd : I d) (h : xs.foldlM f d = .ok e) : I e := by
  induction xs generalizing d with
  | nil =>
    cases h
    exact hd
  | cons x xs ih =>
    rw [List.forall_mem_cons] at hstep
    rw [List.foldlM_cons] at h
    obtain ⟨d', hx, h⟩ := bind_ok.1 h
    exact ih hstep.2 (hstep.1 d d' hd hx) h

end Judge

/-! ## Types -/

namespace Method

/-- Both bounds, where they are known, satisfy `P`. -/
def Bounds.All {α : Type} (P : α → Prop) (b : Bounds α) : Prop :=
  (∀ o ∈ b.1, ∀ a ∈ o, P a) ∧ ∀ o ∈ b.2, ∀ a ∈ o, P a

/-- The bounds of a method are of 64 bits. -/
def Readable : Method → Prop
  | integer min max =>
    (∀ i ∈ min, Number.minSigned ≤ i ∧ i ≤ Number.maxSigned) ∧
      ∀ i ∈ max, Number.minSigned ≤ i ∧ i ≤ Number.maxSigned
  | unsignedInteger min max => (∀ n ∈ min, n ≤ Number.maxUnsigned) ∧ ∀ n ∈ max, n ≤ Number.maxUnsigned
  | regexp _ | select _ | code _ => True

variable {α : Type} {P : α → Prop} {judge : Value → Judge α} {b b' : Bounds α} {ms : List (String × Value)}

theorem boundMember_ok (hjudge : ∀ v a, v.InRange → judge v = .ok a → P a) {m : String × Value}
    (hm : m.2.InRange) (hb : b.All P) (h : boundMember judge b m = .ok b') : b'.All P := by
  have hvalue {o : Option α} {known : Option (Option α)} {known' : Option (Option α)}
      (ho : Judge.once known m.1 (Judge.orNull judge m.2) = .ok known') (hknown : o ∈ known') : ∀ a ∈ o, P a :=
    fun a ha => hjudge m.2 a hm (Judge.orNull_ok (Judge.once_ok ho o hknown) a ha)
  unfold boundMember at h
  split at h
  · obtain ⟨known, ho, h⟩ := Judge.bind_ok.1 h
    cases h
    exact ⟨fun o => hvalue ho, hb.2⟩
  · obtain ⟨known, ho, h⟩ := Judge.bind_ok.1 h
    cases h
    exact ⟨hb.1, fun o => hvalue ho⟩
  · cases h
    exact hb

theorem bounds_ok (hjudge : ∀ v a, v.InRange → judge v = .ok a → P a) (hms : ∀ m ∈ ms, m.2.InRange)
    (h : ms.foldlM (boundMember judge) (none, none) = .ok b) :
    (∀ a ∈ b.1.getD none, P a) ∧ ∀ a ∈ b.2.getD none, P a := by
  have hnone : Bounds.All P (none, none) := ⟨nofun, nofun⟩
  have hb : b.All P := Judge.foldlM_ok (fun m hm _ _ => boundMember_ok hjudge (hms m hm)) hnone h
  exact ⟨forall_mem_getD_none hb.1, forall_mem_getD_none hb.2⟩

theorem ofMembers_ok {m : Method} (hms : ∀ m ∈ ms, m.2.InRange) (h : ofMembers ms = .ok m) : m.Readable := by
  have hrest : ∀ m ∈ ms.filter (·.1 != "method"), m.2.InRange := fun m hm => hms m (List.mem_filter.1 hm).1
  unfold ofMembers at h
  obtain ⟨_, _, h⟩ := Judge.bind_ok.1 h
  obtain ⟨tag, _, h⟩ := Judge.bind_ok.1 h
  cases tag with
  | integer =>
    obtain ⟨b, hb, h⟩ := Judge.bind_ok.1 h
    cases h
    exact bounds_ok (fun _ _ => Judge.signed_ok) hrest hb
  | unsignedInteger =>
    obtain ⟨b, hb, h⟩ := Judge.bind_ok.1 h
    cases h
    exact bounds_ok (fun _ _ => Judge.unsigned_ok) hrest hb
  | regexp | select | code =>
    obtain ⟨_, _, h⟩ := Judge.bind_ok.1 h
    cases h
    exact True.intro

end Method

namespace ValueType

def Readable (t : ValueType) : Prop := t.method.Readable

theorem ensures_draftMember {levels : Nat} (d : Draft) (name : String) (hd : ∀ m ∈ d.others, m.2.InRange) :
    Ensures (Draft.member levels d name) fun d => ∀ m ∈ d.others, m.2.InRange := by
  unfold Draft.member
  split
  · exact .after fun _ => .pure hd
  · exact .after fun _ => .pure hd
  · exact .after fun _ => .pure hd
  · refine .after fun _ => (ensures_any levels).bind fun v hv => .pure ?_
    exact List.forall_mem_cons.2 ⟨hv, hd⟩

theorem ensures_finish {d : Draft} (hd : ∀ m ∈ d.others, m.2.InRange) : Ensures d.finish Readable := by
  refine .after fun name => ?_
  split
  · next hm => exact .pure (Method.ofMembers_ok (by simpa using hd) hm)
  · exact ensures_refuse

theorem ensures_type (levels : Nat) : Ensures (read levels) Readable := by
  refine .after fun next => ?_
  split
  · exact ensures_failNext
  · refine ensures_descend fun n _ => ?_
    have hobject : Ensures (object {} (Draft.member n)) fun d => ∀ m ∈ d.others, m.2.InRange :=
      ensures_object nofun ensures_draftMember
    exact hobject.bind fun d hd => (ensures_finish hd).bind fun t ht => .after fun _ => .pure ht
  · exact ensures_mismatch

end ValueType

/-! ## Commands and grammars -/

namespace Command

/-- A command that can be read with some levels left. -/
def Readable (levels : Nat) (c : Command) : Prop :=
  (∀ p ∈ c.params, p.Readable (levels - 2)) ∧ ∀ p ∈ c.args, p.Readable (levels - 1)

def Draft.Readable (levels : Nat) (d : Draft) : Prop :=
  (∀ ps ∈ d.params, ∀ p ∈ ps, p.Readable (levels - 1)) ∧ ∀ o ∈ d.args, ∀ p ∈ o, p.Readable levels

theorem ensures_draftMember {levels : Nat} (d : Draft) (name : String) (hd : d.Readable levels) :
    Ensures (Draft.member levels d name) (Draft.Readable levels) := by
  unfold Draft.member
  split
  case h_3 =>
    exact (ensures_once (ensures_list (Param.ensures_param _))).bind fun _ ho => .pure ⟨ho, hd.2⟩
  case h_4 =>
    exact (ensures_once (ensures_orNull (Param.ensures_param _))).bind fun _ ho => .pure ⟨hd.1, ho⟩
  all_goals exact .after fun _ => .pure hd

theorem ensures_command (levels : Nat) : Ensures (read levels) (Readable levels) := by
  refine ensures_record (fun n hn => ?_) fun n hn => ?_
  · subst hn
    have hempty : Draft.Readable n {} := ⟨nofun, nofun⟩
    refine (ensures_object hempty ensures_draftMember).bind fun d hd => .after fun name => .pure ?_
    exact ⟨forall_mem_getD_nil hd.1, forall_mem_getD_none hd.2⟩
  · subst hn
    refine .after fun name => ?_
    split
    · exact ensures_refuse
    refine .after fun help => (ensures_position (ensures_list (Param.ensures_param _))).bind fun params hparams => ?_
    refine (ensures_position (ensures_orNull (Param.ensures_param _))).bind fun args hargs => ?_
    exact .after fun action => .pure ⟨forall_mem_getD_nil hparams, forall_mem_getD_none hargs⟩

end Command

namespace Grammar

/-- A grammar that can be read with some levels left. -/
def Readable (levels : Nat) (g : Grammar) : Prop :=
  (∀ t ∈ g.types, t.Readable) ∧ ∀ c ∈ g.commands, c.Readable (levels - 2)

def Draft.Readable (levels : Nat) (d : Draft) : Prop :=
  (∀ ts ∈ d.types, ∀ t ∈ ts, t.Readable) ∧ ∀ cs ∈ d.commands, ∀ c ∈ cs, c.Readable (levels - 1)

theorem ensures_draftMember {levels : Nat} (d : Draft) (name : String) (hd : d.Readable levels) :
    Ensures (Draft.member levels d name) (Draft.Readable levels) := by
  unfold Draft.member
  split
  · exact (ensures_once (ensures_list (ValueType.ensures_type _))).bind fun _ ho => .pure ⟨ho, hd.2⟩
  · exact (ensures_once (ensures_list (Command.ensures_command _))).bind fun _ ho => .pure ⟨hd.1, ho⟩
  · exact .after fun _ => .pure hd

theorem ensures_grammar (levels : Nat) : Ensures (read levels) (Readable levels) := by
  refine ensures_record (fun n hn => ?_) fun n hn => ?_
  · subst hn
    have hempty : Draft.Readable n {} := ⟨nofun, nofun⟩
    refine (ensures_object hempty ensures_draftMember).bind fun d hd => ?_
    exact .pure ⟨forall_mem_getD_nil hd.1, forall_mem_getD_nil hd.2⟩
  · subst hn
    refine (ensures_position (ensures_list (ValueType.ensures_type _))).bind fun types htypes => ?_
    refine (ensures_position (ensures_list (Command.ensures_command _))).bind fun commands hcommands => ?_
    exact .pure ⟨forall_mem_getD_nil htypes, forall_mem_getD_nil hcommands⟩

/-- A grammar that was read can be read again. -/
theorem readable_of_read {text : String} {g : Grammar} (h : readText text = .ok g) : g.Readable maxLevels := by
  unfold readText at h
  rcases hread : whole Grammar.read (Comments.strip text) with e | g'
  · rw [hread] at h
    cases h
  · rw [hread] at h
    cases h
    exact Ensures.of_whole (ensures_grammar maxLevels) hread

end Grammar

end LineMatch
