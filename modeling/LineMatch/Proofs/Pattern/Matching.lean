/-
  LineMatch.Proofs.Pattern.Matching — what a pattern matches, and what is computed of it.

  `Expr.Matches` says from where to where an expression matches in a text: a relation of
  places, by recursion over the expression. A plan computes the image of a set of places
  under it, a bit for each place. A repetition goes on for as many rounds as the text has
  places: each round that counts takes a character.

  Proved:
  - `maps_reach`: a plan maps places to those where matches end that begin at them.
  - `isMatch_iff`: an expression matches somewhere if it does from one place to another.
  - `isMatch_betweenEnds`: between the ends of a text it matches if it spans the text.
-/

import Mathlib.Data.Nat.Bitwise
import Mathlib.Logic.Function.Iterate
import LineMatch.Pattern.Match

namespace LineMatch.Pattern

/-! ## Matches -/

/-- From one place to another by so many rounds. -/
def Repeated (R : Nat → Nat → Prop) : Nat → Nat → Nat → Prop
  | 0, i, j => i = j
  | n + 1, i, j => ∃ k, R i k ∧ Repeated R n k j

def charBefore (cs : List Char) : Nat → Option Char
  | 0 => none
  | i + 1 => cs[i]?

/-- An expression matches from one place of a text to another. -/
def Expr.Matches (cs : List Char) : Expr → Nat → Nat → Prop
  | empty, i, j => i = j
  | one k, i, j => (∃ c, cs[i]? = some c ∧ k.has c = true) ∧ j = i + 1
  | place p, i, j => (i ≤ cs.length ∧ p.holds (charBefore cs i) cs[i]? = true) ∧ j = i
  | seq a b, i, j => ∃ k, a.Matches cs i k ∧ b.Matches cs k j
  | choice a b, i, j => a.Matches cs i j ∨ b.Matches cs i j
  | group a, i, j => a.Matches cs i j
  | times a least most, i, j =>
    ∃ n, least ≤ n ∧ (∀ m ∈ most, n ≤ max least m) ∧ Repeated (a.Matches cs) n i j

/-- A match of all of a text. -/
def Expr.Spans (e : Expr) (cs : List Char) : Prop := e.Matches cs 0 cs.length

variable {R S : Nat → Nat → Prop} {f g : Nat → Nat} {m n i j k : Nat} {cs : List Char} {e : Expr}

/-! ## Rounds -/

theorem repeated_add : Repeated R (m + n) i j ↔ ∃ k, Repeated R m i k ∧ Repeated R n k j := by
  induction m generalizing i with
  | zero =>
    rw [Nat.zero_add]
    exact ⟨fun h => ⟨i, rfl, h⟩, fun ⟨_, hi, h⟩ => hi ▸ h⟩
  | succ m ih =>
    rw [Nat.succ_add]
    constructor
    · intro ⟨l, hl, h⟩
      obtain ⟨k, hm, hn⟩ := ih.1 h
      exact ⟨k, ⟨l, hl, hm⟩, hn⟩
    · intro ⟨k, ⟨l, hl, hm⟩, hn⟩
      exact ⟨l, hl, ih.2 ⟨k, hm, hn⟩⟩

/-- Rounds that may also stay where they are. -/
theorem repeated_or_stay : Repeated (fun i j => i = j ∨ R i j) n i j ↔ ∃ k ≤ n, Repeated R k i j := by
  induction n generalizing i with
  | zero =>
    constructor
    · intro h
      exact ⟨0, Nat.le_refl 0, h⟩
    · intro ⟨k, hk, h⟩
      obtain rfl := Nat.le_zero.1 hk
      exact h
  | succ n ih =>
    constructor
    · intro ⟨l, hl, h⟩
      obtain ⟨k, hk, h⟩ := ih.1 h
      rcases hl with rfl | hl
      · exact ⟨k, by omega, h⟩
      · exact ⟨k + 1, by omega, l, hl, h⟩
    · intro ⟨k, hk, h⟩
      cases k with
      | zero => exact ⟨i, .inl rfl, ih.2 ⟨0, Nat.zero_le n, h⟩⟩
      | succ k =>
        obtain ⟨l, hl, h⟩ := h
        exact ⟨l, .inr hl, ih.2 ⟨k, by omega, h⟩⟩

/-- A step stays where it is, or goes on within the text. -/
def Advances (n : Nat) (R : Nat → Nat → Prop) : Prop := ∀ i j, R i j → i = j ∨ (i < j ∧ j ≤ n)

/-- Rounds that stay where they are can be left out. -/
theorem Advances.shorten (h : Advances n R) (hm : Repeated R m i j) :
    (i = j ∨ (i < j ∧ j ≤ n)) ∧ ∃ k ≤ j - i, Repeated R k i j := by
  induction m generalizing i with
  | zero => exact ⟨.inl hm, 0, Nat.zero_le _, hm⟩
  | succ m ih =>
    obtain ⟨l, hl, hm⟩ := hm
    obtain ⟨hle, k, hk, hrounds⟩ := ih hm
    rcases h i l hl with rfl | ⟨hlt, hn⟩
    · exact ⟨hle, k, hk, hrounds⟩
    · exact ⟨.inr (by omega), k + 1, by omega, l, hl, hrounds⟩

theorem Advances.repeated (h : Advances n R) : Advances n (Repeated R m) := fun _ _ hm => (h.shorten hm).1

theorem advances_matches (e : Expr) : Advances cs.length (e.Matches cs) := by
  induction e with
  | empty => exact fun i j h => .inl h
  | one k =>
    rintro i j ⟨⟨c, hc, -⟩, rfl⟩
    obtain ⟨hlt, -⟩ := List.getElem?_eq_some_iff.1 hc
    exact .inr (by omega)
  | place p =>
    rintro i j ⟨-, rfl⟩
    exact .inl rfl
  | seq a b iha ihb =>
    intro i j ⟨k, ha, hb⟩
    have hik := iha i k ha
    have hkj := ihb k j hb
    omega
  | choice a b iha ihb =>
    intro i j h
    rcases h with h | h
    · exact iha i j h
    · exact ihb i j h
  | group a ih => exact ih
  | times a least most ih =>
    intro i j ⟨n, _, _, h⟩
    exact ih.repeated i j h

/-! ## Sets of places -/

/-- `f` gives the places that `R` leads to from the places it is given. -/
def Maps (f : Nat → Nat) (R : Nat → Nat → Prop) : Prop :=
  ∀ s j, (f s).testBit j = true ↔ ∃ i, s.testBit i = true ∧ R i j

theorem Maps.congr (h : Maps f R) (hR : ∀ i j, R i j ↔ S i j) : Maps f S := by
  intro s j
  simp only [h s j, hR]

theorem maps_id : Maps id Eq := by
  intro s j
  exact ⟨fun h => ⟨j, h, rfl⟩, fun ⟨_, h, hi⟩ => hi ▸ h⟩

theorem Maps.comp (hf : Maps f R) (hg : Maps g S) : Maps (fun s => g (f s)) fun i j => ∃ k, R i k ∧ S k j := by
  intro s j
  rw [hg]
  constructor
  · intro ⟨k, hk, hj⟩
    obtain ⟨i, hi, hR⟩ := (hf s k).1 hk
    exact ⟨i, hi, k, hR, hj⟩
  · intro ⟨i, hi, k, hR, hj⟩
    exact ⟨k, (hf s k).2 ⟨i, hi, hR⟩, hj⟩

theorem Maps.or (hf : Maps f R) (hg : Maps g S) : Maps (fun s => f s ||| g s) fun i j => R i j ∨ S i j := by
  intro s j
  rw [Nat.testBit_or, Bool.or_eq_true, hf, hg]
  constructor
  · rintro (⟨i, hi, h⟩ | ⟨i, hi, h⟩)
    · exact ⟨i, hi, .inl h⟩
    · exact ⟨i, hi, .inr h⟩
  · rintro ⟨i, hi, h | h⟩
    · exact .inl ⟨i, hi, h⟩
    · exact .inr ⟨i, hi, h⟩

theorem applyTimes_eq (f : Nat → Nat) (n s : Nat) : applyTimes f n s = f^[n] s := by
  induction n generalizing s with
  | zero => rfl
  | succ n ih =>
    rw [applyTimes, Function.iterate_succ_apply]
    split
    · next h => rw [h, Function.iterate_fixed h]
    · exact ih _

theorem Maps.times (h : Maps f R) (n : Nat) : Maps (applyTimes f n) (Repeated R n) := by
  have hiterate : Maps (f^[n]) (Repeated R n) := by
    induction n with
    | zero => exact maps_id
    | succ n ih => exact h.comp ih
  intro s j
  rw [applyTimes_eq]
  exact hiterate s j

theorem Maps.upTo (h : Maps f R) (n : Nat) : Maps (applyUpTo f n) fun i j => ∃ k ≤ n, Repeated R k i j :=
  ((maps_id.or h).times n).congr fun _ _ => repeated_or_stay

/-! ## Places that pass a test -/

theorem testBit_bits (bs : List Bool) (i : Nat) : (bits bs).testBit i = true ↔ bs[i]? = some true := by
  induction bs generalizing i with
  | nil => simp [bits]
  | cons b bs ih =>
    cases i with
    | zero => cases b <;> simp [bits, Nat.testBit_zero]
    | succ i =>
      have hle := b.toNat_le
      have hhalf : (2 * bits bs + b.toNat) / 2 = bits bs := by omega
      rw [bits, Nat.testBit_add_one, hhalf, ih, List.getElem?_cons_succ]

theorem getElem?_gapsFrom (before : Option Char) (cs : List Char) (i : Nat) : (gapsFrom before cs)[i]? =
    if i ≤ cs.length then some (if i = 0 then before else charBefore cs i, cs[i]?) else none := by
  induction cs generalizing before i with
  | nil =>
    cases i with
    | zero => rfl
    | succ i => simp [gapsFrom]
  | cons c cs ih =>
    cases i with
    | zero => rfl
    | succ i =>
      rw [gapsFrom, List.getElem?_cons_succ, ih]
      cases i <;> simp [charBefore]

theorem testBit_classPlaces {k : Class} :
    (bits (cs.map k.has)).testBit i = true ↔ ∃ c, cs[i]? = some c ∧ k.has c = true := by
  rw [testBit_bits, List.getElem?_map, Option.map_eq_some_iff]

theorem testBit_gaps {p : Place} : (bits ((gapsFrom none cs).map fun g => p.holds g.1 g.2)).testBit i = true ↔
    i ≤ cs.length ∧ p.holds (charBefore cs i) cs[i]? = true := by
  have hbefore : (if i = 0 then none else charBefore cs i) = charBefore cs i := by
    cases i <;> rfl
  rw [testBit_bits, List.getElem?_map, getElem?_gapsFrom, hbefore]
  split
  · next h => simp [h]
  · next h => simp [h]

/-! ## Plans -/

theorem maps_repeat {a : Plan} (h : Maps (a.reach n) R) (hadvances : Advances n R) (least : Nat) (most : Option Nat) :
    Maps ((Plan.times a least most).reach n) fun i j =>
      ∃ k, least ≤ k ∧ (∀ m ∈ most, k ≤ max least m) ∧ Repeated R k i j := by
  cases most with
  | none =>
    refine ((h.times least).comp (h.upTo (n + 1))).congr fun i j => ?_
    constructor
    · intro ⟨l, hl, k, _, hk⟩
      exact ⟨least + k, Nat.le_add_right least k, nofun, repeated_add.2 ⟨l, hl, hk⟩⟩
    · intro ⟨k, hk, _, hrounds⟩
      obtain ⟨m, rfl⟩ := Nat.exists_eq_add_of_le hk
      obtain ⟨l, hl, hm⟩ := repeated_add.1 hrounds
      obtain ⟨hle, k', hk', hshort⟩ := hadvances.shorten hm
      exact ⟨l, hl, k', by omega, hshort⟩
  | some most =>
    refine ((h.times least).comp (h.upTo (most - least))).congr fun i j => ?_
    constructor
    · intro ⟨l, hl, k, hk, hrounds⟩
      refine ⟨least + k, Nat.le_add_right least k, ?_, repeated_add.2 ⟨l, hl, hrounds⟩⟩
      rintro m ⟨⟩
      omega
    · intro ⟨k, hk, hmost, hrounds⟩
      have hle := hmost most rfl
      obtain ⟨m, rfl⟩ := Nat.exists_eq_add_of_le hk
      obtain ⟨l, hl, hm⟩ := repeated_add.1 hrounds
      exact ⟨l, hl, m, by omega, hm⟩

theorem maps_reach (cs : List Char) (e : Expr) : Maps ((e.plan cs).reach cs.length) (e.Matches cs) := by
  induction e with
  | empty => exact maps_id
  | one k =>
    intro s j
    simp only [Expr.plan, Plan.reach, Nat.testBit_shiftLeft, Nat.testBit_and, Bool.and_eq_true, decide_eq_true_eq,
      testBit_classPlaces]
    constructor
    · intro ⟨hj, hs, hk⟩
      exact ⟨j - 1, hs, hk, by omega⟩
    · rintro ⟨i, hs, hk, rfl⟩
      exact ⟨by omega, hs, hk⟩
  | place p =>
    intro s j
    simp only [Expr.plan, Plan.reach, Nat.testBit_and, Bool.and_eq_true, testBit_gaps]
    constructor
    · intro ⟨hs, hp⟩
      exact ⟨j, hs, hp, rfl⟩
    · rintro ⟨i, hs, hp, rfl⟩
      exact ⟨hs, hp⟩
  | seq a b iha ihb => exact iha.comp ihb
  | choice a b iha ihb => exact iha.or ihb
  | group a ih => exact ih
  | times a least most ih => exact maps_repeat ih (advances_matches a) least most

/-! ## Texts -/

theorem isMatch_iff (e : Expr) (cs : List Char) : e.isMatch cs = true ↔ ∃ i ≤ cs.length, ∃ j, e.Matches cs i j := by
  have hall : ∀ i, (allPlaces cs).testBit i = true ↔ i ≤ cs.length := by
    intro i
    have hpow : allPlaces cs = 2 ^ (cs.length + 1) - 1 := rfl
    rw [hpow, Nat.testBit_two_pow_sub_one, decide_eq_true_eq]
    omega
  have hreach := maps_reach cs e (allPlaces cs)
  rw [Expr.isMatch, bne_iff_ne]
  constructor
  · intro hne
    obtain ⟨j, hj⟩ := Nat.exists_testBit_of_ne_zero hne
    obtain ⟨i, hi, h⟩ := (hreach j).1 hj
    exact ⟨i, (hall i).1 hi, j, h⟩
  · intro ⟨i, hi, j, h⟩ hzero
    have hj := (hreach j).2 ⟨i, (hall i).2 hi, h⟩
    rw [hzero, Nat.zero_testBit] at hj
    cases hj

theorem matches_textStart : (Expr.place .textStart).Matches cs i j ↔ i = 0 ∧ j = 0 := by
  cases i with
  | zero => simp [Expr.Matches, Place.holds, charBefore]
  | succ i =>
    simp only [Expr.Matches, Place.holds, charBefore]
    constructor
    · intro ⟨⟨hle, hnone⟩, _⟩
      rw [Option.isNone_iff_eq_none, List.getElem?_eq_none_iff] at hnone
      omega
    · intro ⟨h, _⟩
      cases h

theorem matches_textEnd : (Expr.place .textEnd).Matches cs i j ↔ i = cs.length ∧ j = i := by
  simp only [Expr.Matches, Place.holds, Option.isNone_iff_eq_none, List.getElem?_eq_none_iff]
  omega

/-- Between the ends of a text. -/
def Expr.betweenEnds (e : Expr) : Expr := .seq (.place .textStart) (.seq e (.place .textEnd))

theorem isMatch_betweenEnds (e : Expr) (cs : List Char) : e.betweenEnds.isMatch cs = true ↔ e.Spans cs := by
  rw [isMatch_iff]
  constructor
  · intro ⟨i, _, j, k, hstart, l, he, hend⟩
    obtain ⟨-, rfl⟩ := matches_textStart.1 hstart
    obtain ⟨rfl, -⟩ := matches_textEnd.1 hend
    exact he
  · intro he
    exact ⟨0, Nat.zero_le _, cs.length, 0, matches_textStart.2 ⟨rfl, rfl⟩, cs.length, he, matches_textEnd.2 ⟨rfl, rfl⟩⟩

end LineMatch.Pattern
