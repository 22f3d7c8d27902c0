/-
  LineMatch.Proofs.Json.Ensures — what readers give.

  `Ensures r P` says that whatever `r` reads satisfies `P`. It goes along with binds, so a
  reader ensures what its parts do: a list what its elements ensure, an object what each
  member keeps of the draft.

  Proved:
  - `ensures_number`, `ensures_any`: whole numbers that are read fit into 64 bits.
  - `ensures_list`, `ensures_members`, `ensures_record`: what containers ensure.
  - `whole_ok_iff`: a text is read when the reader of its value leaves blanks at most.
-/

import LineMatch.Json.Reader

namespace LineMatch.Json

open LineMatch.Number (maxUnsigned)

/-- Whole numbers as 64 bits hold them; zero is not negative. -/
def Number.InRange : Number → Prop
  | nat n => n ≤ maxUnsigned
  | negative n => 0 < n ∧ n ≤ Nat.pow 2 63
  | real _ _ => True

/-- A number that is in range, or no number at all. -/
def Value.InRange : Value → Prop
  | number n => n.InRange
  | null | bool _ | string _ | array _ | object _ => True

namespace Read

variable {α β σ : Type} {P : α → Prop} {Q : β → Prop} {c c' : Cursor} {a : α} {b : β} {r : Read α}
  {f : α → Read β}

/-- Every value that `r` reads satisfies `P`. -/
def Ensures (r : Read α) (P : α → Prop) : Prop := ∀ c a c', r c = .ok (a, c') → P a

/-! ## Binds -/

theorem bind_ok : (r >>= f) c = .ok (b, c') ↔ ∃ a d, r c = .ok (a, d) ∧ f a d = .ok (b, c') := by
  have hbind : (r >>= f) c = (r c >>= fun x => f x.1 x.2) := rfl
  rw [hbind]
  rcases r c with e | ⟨a, d⟩
  · exact ⟨nofun, fun ⟨_, _, h, _⟩ => by cases h⟩
  · refine ⟨fun h => ⟨a, d, rfl, h⟩, fun ⟨_, _, ha, hb⟩ => ?_⟩
    cases ha
    exact hb

theorem Ensures.bind {P : α → Prop} (hr : Ensures r P) (hf : ∀ a, P a → Ensures (f a) Q) :
    Ensures (r >>= f) Q := by
  intro c b c' h
  obtain ⟨a, d, ha, hb⟩ := bind_ok.1 h
  exact hf a (hr c a d ha) d b c' hb

theorem Ensures.trivial : Ensures r fun _ => True := fun _ _ _ _ => True.intro

/-- A bind whose first part does not matter. -/
theorem Ensures.after (hf : ∀ a, Ensures (f a) Q) : Ensures (r >>= f) Q :=
  Ensures.trivial.bind fun a _ => hf a

theorem Ensures.pure (h : P a) : Ensures (Pure.pure a : Read α) P := by
  intro c b c' hb
  cases hb
  exact h

theorem Ensures.mono {P' : α → Prop} (h : Ensures r P) (hP : ∀ a, P a → P' a) : Ensures r P' :=
  fun c a c' ha => hP a (h c a c' ha)

theorem ensures_failHere {cause : SyntaxFault} : Ensures (failHere cause : Read α) P := fun _ _ _ => nofun

theorem ensures_failNext {cause : SyntaxFault} : Ensures (failNext cause : Read α) P := fun _ _ _ => nofun

theorem ensures_refuse {cause : ShapeFault} : Ensures (refuse cause : Read α) P := fun _ _ _ => nofun

/-- What is no value of the shape wanted is refused. -/
theorem ensures_mismatch {expected : String} : Ensures (mismatch expected : Read α) P := by
  refine .after fun next => ?_
  split
  · exact .after fun _ => .after fun _ => ensures_refuse
  · exact .after fun _ => .after fun _ => ensures_refuse
  · exact .after fun _ => .after fun _ => ensures_refuse
  · exact .after fun _ => .after fun _ => ensures_refuse
  · exact .after fun _ => .after fun _ => ensures_refuse
  · exact ensures_refuse
  · exact ensures_refuse
  · split
    · exact .after fun _ => ensures_refuse
    · exact ensures_failNext
  · exact ensures_failNext

/-! ## Numbers -/

theorem significand_le {start : Nat} {digits : List Char} (h : start ≤ maxUnsigned) :
    (significand start digits).1 ≤ maxUnsigned := by
  unfold significand
  refine List.foldlRecOn (motive := fun x : Nat × Nat => x.1 ≤ maxUnsigned) digits _ h fun x hx d _ => ?_
  dsimp only
  split
  · next hm => exact hm.2
  · exact hx

theorem ensures_realOf {isNegative : Bool} {n : Nat} {e : Int} :
    Ensures (realOf isNegative n e) Number.InRange := by
  unfold realOf
  split
  · exact .pure True.intro
  · exact ensures_failHere

theorem ensures_withExponent {isNegative : Bool} {n : Nat} {start : Int} :
    Ensures (withExponent isNegative n start) Number.InRange := by
  refine .after fun _ => .after fun down => .after fun next => ?_
  split
  · exact ensures_failHere
  · split
    · exact ensures_failHere
    · refine .after fun digits => ?_
      split
      · exact ensures_realOf
      · split
        · exact ensures_failHere
        · exact .pure True.intro

theorem ensures_withFraction {isNegative : Bool} {n : Nat} {start : Int} :
    Ensures (withFraction isNegative n start) Number.InRange := by
  unfold withFraction
  refine .after fun _ => .after fun digits => ?_
  split
  · refine .after fun next => ?_
    split <;> exact ensures_failNext
  · refine .after fun next => ?_
    split
    · exact ensures_withExponent
    · exact ensures_withExponent
    · exact ensures_realOf

theorem ensures_afterDigits {isNegative : Bool} {n more : Nat} (h : n ≤ maxUnsigned) :
    Ensures (afterDigits isNegative n more) Number.InRange := by
  refine .after fun next => ?_
  split
  · exact ensures_withFraction
  · exact ensures_withExponent
  · exact ensures_withExponent
  · split
    · exact ensures_realOf
    split
    · exact .pure h
    split
    · exact ensures_realOf
    · next hneg =>
      obtain ⟨hzero, hlarge⟩ := not_or.1 hneg
      exact .pure ⟨Nat.pos_of_ne_zero hzero, Nat.not_lt.1 hlarge⟩

theorem ensures_number {isNegative : Bool} : Ensures (number isNegative) Number.InRange := by
  refine .after fun next => ?_
  split
  · exact ensures_failHere
  split
  · exact ensures_failHere
  next d hd =>
  have hdigit : Number.digitValue d ≤ maxUnsigned := by
    simp only [Bool.not_eq_true, Bool.not_eq_false', Number.isDigit, Bool.and_eq_true, decide_eq_true_eq, Char.le_def,
      UInt32.le_iff_toNat_le] at hd
    have hnine : ('9' : Char).val.toNat = 57 := rfl
    have hnat : d.toNat = d.val.toNat := rfl
    simp only [Number.digitValue, maxUnsigned]
    omega
  exact .after fun digits => ensures_afterDigits (significand_le hdigit)

/-! ## Containers -/

variable {element : Nat → Read α} {levels : Nat} {content : Nat → Read α}

theorem ensures_descend (h : ∀ n, levels = n + 1 → Ensures (content n) P) :
    Ensures (descend levels content) P := by
  unfold descend
  split
  · exact ensures_failNext
  · exact .after fun _ => h _ rfl

theorem ensures_elements {element : Read α} (h : Ensures element P) (fuel : Nat) (isFirst : Bool) :
    Ensures (elements element fuel isFirst) fun as => ∀ a ∈ as, P a := by
  induction fuel generalizing isFirst with
  | zero => exact ensures_failNext
  | succ fuel ih =>
    refine .after fun more => ?_
    split
    · exact h.bind fun a ha => (ih false).bind fun as has => .pure (List.forall_mem_cons.2 ⟨ha, has⟩)
    · exact .pure nofun

theorem ensures_list (h : Ensures (element (levels - 1)) P) :
    Ensures (list levels element) fun as => ∀ a ∈ as, P a := by
  refine .after fun next => ?_
  split
  · exact ensures_failNext
  · refine ensures_descend fun n hn => ?_
    subst hn
    refine Ensures.bind (P := fun as => ∀ a ∈ as, P a) (fun c => ensures_elements h _ _ c) fun as has => ?_
    exact .after fun _ => .pure has
  · exact ensures_mismatch

variable {I : σ → Prop} {member : σ → String → Read σ}

theorem ensures_members (h : ∀ d name, I d → Ensures (member d name) I) (fuel : Nat) (isFirst : Bool) {d : σ}
    (hd : I d) : Ensures (members member fuel isFirst d) I := by
  induction fuel generalizing isFirst d with
  | zero => exact ensures_failNext
  | succ fuel ih =>
    refine .after fun more => ?_
    split
    · exact .after fun _ => .after fun name => (h d name hd).bind fun d' hd' => ih false hd'
    · exact .pure hd

/-- What every member keeps of a draft holds of the whole object. -/
theorem ensures_object {empty : σ} (hempty : I empty) (h : ∀ d name, I d → Ensures (member d name) I) :
    Ensures (object empty member) I := fun c => ensures_members h _ _ hempty c

theorem ensures_record {expected : String} {ofObject ofArray : Nat → Read α}
    (hobject : ∀ n, levels = n + 1 → Ensures (ofObject n) P)
    (harray : ∀ n, levels = n + 1 → Ensures (ofArray n) P) :
    Ensures (record levels expected ofObject ofArray) P := by
  refine .after fun next => ?_
  split
  · exact ensures_failNext
  · exact ensures_descend fun n hn => (harray n hn).bind fun a ha => .after fun _ => .pure ha
  · exact ensures_descend fun n hn => (hobject n hn).bind fun a ha => .after fun _ => .pure ha
  · exact ensures_mismatch

/-! ## Members -/

theorem ensures_orNull (h : Ensures r P) : Ensures (orNull r) fun o => ∀ a ∈ o, P a := by
  refine .after fun next => ?_
  split
  · exact .after fun _ => .after fun _ => .pure nofun
  · exact h.bind fun a ha => .pure fun _ he => Option.mem_some.1 he ▸ ha

theorem ensures_position {isFirst : Bool} (h : Ensures r P) :
    Ensures (position isFirst r) fun o => ∀ a ∈ o, P a := by
  refine .after fun more => ?_
  split
  · exact h.bind fun a ha => .pure fun _ he => Option.mem_some.1 he ▸ ha
  · exact .pure nofun

theorem ensures_once {known : Option α} {name : String} (h : Ensures r P) :
    Ensures (once known name r) fun o => ∀ a ∈ o, P a := by
  unfold once
  split
  · exact ensures_refuse
  · exact .after fun _ => h.bind fun a ha => .pure fun _ he => Option.mem_some.1 he ▸ ha

/-! ## Any value -/

theorem ensures_scalarOr {container : Read Value} (h : Ensures container Value.InRange) :
    Ensures (scalarOr container) Value.InRange := by
  refine .after fun next => ?_
  split
  · exact ensures_failNext
  · exact .after fun _ => .after fun _ => .pure True.intro
  · exact .after fun _ => .after fun _ => .pure True.intro
  · exact .after fun _ => .after fun _ => .pure True.intro
  · exact .after fun _ => ensures_number.bind fun n hn => .pure hn
  · exact .after fun _ => .after fun s => .pure True.intro
  · exact h
  · exact h
  · split
    · exact ensures_number.bind fun n hn => .pure hn
    · exact ensures_failNext

theorem ensures_containerOf {value : Read Value} : Ensures (containerOf value) Value.InRange := by
  refine .after fun next => ?_
  split
  · exact .after fun vs => .after fun _ => .pure True.intro
  · exact .after fun ms => .after fun _ => .pure True.intro

theorem ensures_any (levels : Nat) : Ensures (any levels) Value.InRange := by
  cases levels with
  | zero => exact ensures_scalarOr ensures_failNext
  | succ n => exact ensures_scalarOr ensures_containerOf

/-! ## Whole texts -/

theorem whole_ok_iff {value : Nat → Read α} {text : String} : whole value text = .ok a ↔
    ∃ c c', value maxLevels (Cursor.ofText text) = .ok (a, c) ∧ peekPastBlanks c = .ok (none, c') := by
  have hrun (r : Read α) : StateT.run' r (Cursor.ofText text) = .ok a ↔
      ∃ c, r (Cursor.ofText text) = .ok (a, c) := by
    have hmap : StateT.run' r (Cursor.ofText text) = (r (Cursor.ofText text)).map Prod.fst := rfl
    rw [hmap]
    rcases r (Cursor.ofText text) with e | ⟨b, c⟩
    · exact ⟨nofun, nofun⟩
    · exact ⟨fun h => ⟨c, by cases h; rfl⟩, fun ⟨_, h⟩ => by cases h; rfl⟩
  rw [whole, hrun]
  constructor
  · rintro ⟨c', h⟩
    obtain ⟨b, c, hvalue, h⟩ := bind_ok.1 h
    obtain ⟨next, d, hnext, h⟩ := bind_ok.1 h
    cases next with
    | none =>
      cases h
      exact ⟨c, _, hvalue, hnext⟩
    | some => cases h
  · rintro ⟨c, c', hvalue, hnext⟩
    exact ⟨c', bind_ok.2 ⟨a, c, hvalue, bind_ok.2 ⟨none, c', hnext, rfl⟩⟩⟩

theorem Ensures.of_whole {value : Nat → Read α} {text : String} (h : Ensures (value maxLevels) P)
    (hread : whole value text = .ok a) : P a := by
  obtain ⟨c, _, hvalue, -⟩ := whole_ok_iff.1 hread
  exact h _ a c hvalue

end Read

end LineMatch.Json
