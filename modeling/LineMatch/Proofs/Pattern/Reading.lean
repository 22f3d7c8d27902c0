/-
  LineMatch.Proofs.Pattern.Reading — reading a whole pattern, step after step.

  A pattern is read by steps (`State.next?`), each of which takes a character at least, up
  to a state without a next one. A pattern reads as an item if nothing is left in that state
  and no group is open (`read_eq`, `State.item?`).

  Two things may be put around a text that is read. Behind it an ending: then the steps are
  the same, and the ending is left, unless a comment has taken it (`reads_ended`). Around
  the groups that are open another one: then the steps are the same as long as no
  parenthesis closes it (`reads_within`).
-/

import Mathlib.Logic.Relation
import LineMatch.Proofs.Pattern.Stepping

namespace LineMatch.Pattern

variable {engine : Engine} {c : Char} {cs cs' rest : List Char} {s t u : State} {b : Begun} {i : Item} {fuel : Nat}

/-- The state after the next item, if there is one. -/
def State.next? (engine : Engine) (s : State) : Option State :=
  match s.flags.ahead s.rest with
  | [] => none
  | c :: cs => s.step? engine c cs

/-- Some items are read. -/
def State.Reads (engine : Engine) : State → State → Prop := Relation.ReflTransGen fun s t => s.next? engine = some t

theorem next_nil (h : s.flags.ahead s.rest = []) : s.next? engine = none := by
  simp only [State.next?, h]

theorem next_cons (h : s.flags.ahead s.rest = c :: cs) : s.next? engine = s.step? engine c cs := by
  simp only [State.next?, h]

theorem exists_ahead_of_next (h : s.next? engine = some t) :
    ∃ c cs, s.flags.ahead s.rest = c :: cs ∧ s.step? engine c cs = some t := by
  rcases hs : s.flags.ahead s.rest with _ | ⟨c, cs⟩
  · rw [next_nil hs] at h
    cases h
  · exact ⟨c, cs, rfl, next_cons hs ▸ h⟩

/-- A step takes a character at least. -/
theorem length_next_lt (h : s.next? engine = some t) : t.rest.length < s.rest.length := by
  obtain ⟨c, cs, hahead, hstep⟩ := exists_ahead_of_next h
  have hextends := extends_step engine (s := s) (c := c) (ended_append cs)
  rw [hstep] at hextends
  obtain ⟨_, -, hsame⟩ := hextends
  have hle := length_ahead_le s.flags s.rest
  rw [hahead, List.length_cons] at hle
  have hlength := hsame.length
  omega

theorem exists_end (engine : Engine) (s : State) : ∃ t, s.Reads engine t ∧ t.next? engine = none := by
  rcases hnext : s.next? engine with _ | t
  · exact ⟨s, .refl, hnext⟩
  · have hlt := length_next_lt hnext
    obtain ⟨u, hreads, hend⟩ := exists_end engine t
    exact ⟨u, .head hnext hreads, hend⟩
termination_by s.rest.length

/-! ## Runs -/

/-- What is read in the end, if the text is read and every group is closed. -/
def State.item? (s : State) : Option Item :=
  match s.flags.ahead s.rest with
  | [] => if s.outer.isEmpty then some s.level.closed else none
  | _ :: _ => none

theorem run_next (h : s.next? engine = some t) : State.run? engine (fuel + 1) s = State.run? engine fuel t := by
  obtain ⟨c, cs, hahead, hstep⟩ := exists_ahead_of_next h
  rw [State.run?, hahead]
  dsimp only
  rw [hstep]
  rfl

theorem run_end (h : s.next? engine = none) : State.run? engine (fuel + 1) s = s.item? := by
  rw [State.run?, State.item?]
  rcases hs : s.flags.ahead s.rest with _ | ⟨c, cs⟩
  · rfl
  · rw [next_cons hs] at h
    dsimp only
    rw [h]
    rfl

/-- A run long enough comes to the end. -/
theorem run_eq (h : s.Reads engine t) (hend : t.next? engine = none) (hfuel : s.rest.length < fuel) :
    State.run? engine fuel s = t.item? := by
  induction h using Relation.ReflTransGen.head_induction_on generalizing fuel with
  | refl =>
    obtain ⟨fuel, rfl⟩ := Nat.exists_eq_add_one_of_ne_zero (Nat.ne_zero_of_lt hfuel)
    exact run_end hend
  | head hnext _ ih =>
    obtain ⟨fuel, rfl⟩ := Nat.exists_eq_add_one_of_ne_zero (Nat.ne_zero_of_lt hfuel)
    have hlt := length_next_lt hnext
    rw [run_next hnext, ih (by omega)]

theorem read_eq (h : State.Reads engine ⟨cs, {}, {}, [], []⟩ t) (hend : t.next? engine = none) :
    read? engine cs = t.item? :=
  run_eq h hend (Nat.lt_succ_self _)

/-! ## With an ending behind -/

/-- The state with another text left. -/
def State.at (s : State) (cs : List Char) : State := { s with rest := cs }

theorem step_at (cs : List Char) (s : State) (rest : List Char) :
    (s.at rest).step? engine c cs = s.step? engine c cs := rfl

theorem next_ended (h : s.next? engine = some t) (hrest : Ended s.rest rest) :
    ∃ rest', (s.at rest).next? engine = some (t.at rest') ∧ Ended t.rest rest' := by
  obtain ⟨c, cs, hahead, hstep⟩ := exists_ahead_of_next h
  have hrest' := hrest.ahead (f := s.flags)
  rw [hahead] at hrest'
  obtain ⟨cs', hahead', hcs⟩ := hrest'.cons
  have hextends := extends_step engine (s := s) (c := c) hcs
  rw [hstep] at hextends
  obtain ⟨t', hstep', hsame⟩ := hextends
  refine ⟨t'.rest, ?_, hsame.ended⟩
  have hnext : (s.at rest).next? engine = (s.at rest).step? engine c cs' := next_cons hahead'
  rw [hnext, step_at, hstep']
  exact congrArg some hsame.same

theorem reads_ended (h : s.Reads engine t) (hrest : Ended s.rest rest) :
    ∃ rest', (s.at rest).Reads engine (t.at rest') ∧ Ended t.rest rest' := by
  induction h with
  | refl => exact ⟨rest, .refl, hrest⟩
  | tail _ hnext ih =>
    obtain ⟨rest', hreads, hrest'⟩ := ih
    obtain ⟨rest'', hnext', hrest''⟩ := next_ended hnext hrest'
    exact ⟨rest'', hreads.tail hnext', hrest''⟩

/-! ## Within a group -/

/-- The state within one more group, around all that are open. -/
def State.within (s : State) (b : Begun) : State := { s with outer := s.outer ++ [b] }

theorem openNamed_within : (s.within b).openNamed? cs = (s.openNamed? cs).map (·.within b) := by
  unfold State.openNamed?
  cases groupName? cs with
  | none => rfl
  | some p =>
    have hnames : (s.within b).names = s.names := rfl
    simp only [Option.bind_eq_bind, Option.bind_some, hnames]
    split
    · rfl
    · rfl

theorem setFlags_within : (s.within b).setFlags? cs = (s.setFlags? cs).map (·.within b) := by
  have hflags : (s.within b).flags = s.flags := rfl
  unfold State.setFlags?
  rw [hflags]
  cases readFlags s.flags [] true true cs with
  | none => rfl
  | some p =>
    simp only [Option.bind_eq_bind, Option.bind_some]
    unfold State.withFlags?
    split
    · split
      · rfl
      · rfl
    · rfl
    · rfl

theorem openGroup_within : (s.within b).openGroup? cs = (s.openGroup? cs).map (·.within b) := by
  have hflags : (s.within b).flags = s.flags := rfl
  unfold State.openGroup?
  rw [hflags]
  cases opening (s.flags.ahead cs) with
  | lookAround => rfl
  | named rest => exact openNamed_within
  | flags rest => exact setFlags_within
  | plain rest => rfl

theorem closeGroup_within (h : s.outer ≠ []) : (s.within b).closeGroup? cs = (s.closeGroup? cs).map (·.within b) := by
  obtain ⟨a, outer, houter⟩ := List.exists_cons_of_ne_nil h
  have houter' : (s.within b).outer = a :: (outer ++ [b]) := congrArg (· ++ [b]) houter
  unfold State.closeGroup?
  rw [houter, houter']
  rfl

theorem repeat_within {least : Nat} {most : Option Nat} :
    (s.within b).repeat? least most cs = (s.repeat? least most cs).map (·.within b) := by
  have hlevel : (s.within b).level = s.level := rfl
  unfold State.repeat?
  rw [hlevel]
  cases s.level.items with
  | nil => rfl
  | cons i items =>
    dsimp only
    split
    · rfl
    · rfl

theorem step_within (h : c ≠ ')' ∨ s.outer ≠ []) :
    (s.within b).step? engine c cs = (s.step? engine c cs).map (·.within b) := by
  have hflags : (s.within b).flags = s.flags := rfl
  unfold State.step?
  rw [hflags]
  dsimp only
  split
  · exact openGroup_within
  · exact closeGroup_within (h.resolve_left fun hc => hc rfl)
  · rfl
  · cases bracketed engine s.flags cs with
    | none => rfl
    | some p => rfl
  iterate 3 exact repeat_within
  · cases counted s.flags cs with
    | none => rfl
    | some p => exact repeat_within
  · cases escape engine s.flags cs with
    | none => rfl
    | some p =>
      simp only [Option.bind_eq_bind, Option.bind_some]
      cases atomExpr? s.flags p.1 with
      | none => rfl
      | some e => rfl
  · cases dot? s.flags with
    | none => rfl
    | some e => rfl
  iterate 3 rfl

theorem closeGroup_outside (h : s.outer = []) : s.closeGroup? cs = none := by
  unfold State.closeGroup?
  rw [h]

theorem next_within (h : s.next? engine = some t) : (s.within b).next? engine = some (t.within b) := by
  obtain ⟨c, cs, hahead, hstep⟩ := exists_ahead_of_next h
  have hnext : (s.within b).next? engine = (s.within b).step? engine c cs := next_cons hahead
  rw [hnext, step_within, hstep]
  · rfl
  by_cases houter : s.outer = []
  · refine .inl fun hc => ?_
    subst hc
    have hnone : s.step? engine ')' cs = none := closeGroup_outside houter
    rw [hnone] at hstep
    cases hstep
  · exact .inr houter

theorem reads_within (h : s.Reads engine t) : (s.within b).Reads engine (t.within b) := by
  induction h with
  | refl => exact .refl
  | tail _ hnext ih => exact ih.tail (next_within hnext)

end LineMatch.Pattern
