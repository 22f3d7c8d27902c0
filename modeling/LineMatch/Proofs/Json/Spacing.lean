/-
  LineMatch.Proofs.Json.Spacing — the blanks of a JSON text that matter.

  A `Standing` says what the characters before a place come to. `tight` leaves out the
  blanks outside strings, but for one between two words; `Clashes` says that there are two
  such words, with nothing else between them. Texts that are the same when tight differ in
  blanks only, and in none that parts one word from another.

  Proved:
  - `tight_blanks`: blanks outside strings do not matter, whatever comes after them.
  - `tight_drop`: texts that are the same when tight stay so past a character that is no blank.
  - `word_next`: where a word goes on in one of them, it goes on in the other one too.
-/

import Mathlib.Data.List.TakeWhile
import LineMatch.Proofs.Json.Reads

namespace LineMatch.Json

open Read (isSpace BeginsSolid)

/-- A bracket, a comma or a colon. -/
def isMark (c : Char) : Bool := c ∈ ['[', ']', '{', '}', ',', ':']

/-- A character of a number or of a name such as `null`, or one that no text has there. -/
def isWordChar (c : Char) : Bool := !isSpace c && c != '"' && !isMark c

/-- What the characters before a place come to. -/
inductive Standing where
  /-- Behind no word: after a mark or a string, or at the beginning. -/
  | apart
  | inWord
  /-- Behind a word and blanks. -/
  | pastWord
  | string
  | escaped
  deriving DecidableEq, Repr

namespace Standing

def isOutside : Standing → Bool
  | apart | inWord | pastWord => true
  | string | escaped => false

/-- After a character that stands outside strings and is no blank. -/
def behind (c : Char) : Standing := if c = '"' then string else if isMark c then apart else inWord

/-- After a blank outside strings. -/
def pastBlank (s : Standing) : Standing := if s = apart then apart else pastWord

def next (s : Standing) (c : Char) : Standing :=
  match s with
  | apart | inWord | pastWord => if isSpace c then s.pastBlank else behind c
  | string => if c = '"' then apart else if c = '\\' then escaped else string
  | escaped => string

/-- A word begins behind a word and blanks. -/
def clashes (s : Standing) (c : Char) : Bool := s == pastWord && isWordChar c

/-- What is left of a character. -/
def written (s : Standing) (c : Char) : List Char :=
  if s.isOutside && isSpace c then [] else if s.clashes c then [' ', c] else [c]

end Standing

/-- The text without the blanks that do not matter. -/
def tight (s : Standing) : List Char → List Char
  | [] => []
  | c :: cs => s.written c ++ tight (s.next c) cs

/-- Somewhere a word begins behind a word and blanks. -/
def Clashes (s : Standing) : List Char → Prop
  | [] => False
  | c :: cs => s.clashes c = true ∨ Clashes (s.next c) cs

/-- From `s` on, reading comes past characters to `s'` and the text that is left there, and
    no word begins behind another on the way. -/
inductive Path (s' : Standing) (rest : List Char) : Standing → List Char → Prop
  | here : Path s' rest s' rest
  | past {s : Standing} {c : Char} {cs : List Char} (hc : s.clashes c = false) (h : Path s' rest (s.next c) cs) :
    Path s' rest s (c :: cs)

variable {s s' t t' u : Standing} {x x' y y' gap cs : List Char} {c w : Char}

/-! ## Paths -/

theorem Path.trans (h : Path s' x' s x) (h' : Path u y s' x') : Path u y s x := by
  induction h with
  | here => exact h'
  | past hc _ ih => exact .past hc ih

theorem Path.length_le (h : Path s' x' s x) : x'.length ≤ x.length := by
  induction h with
  | here => exact Nat.le_refl _
  | past _ _ ih => exact Nat.le_succ_of_le ih

theorem Path.length_lt (h : Path s' x' s x) (hne : s ≠ s') : x'.length < x.length := by
  cases h with
  | here => exact absurd rfl hne
  | past _ h => exact Nat.lt_succ_of_le h.length_le

/-- A text that is read to its end has no clash. -/
theorem Path.not_clashes (h : Path s' [] s x) : ¬Clashes s x := by
  induction h with
  | here => exact id
  | past hc _ ih => exact not_or.2 ⟨ne_true_of_eq_false hc, ih⟩

/-! ## Characters -/

theorem isWordChar_iff : isWordChar c = true ↔ isSpace c = false ∧ c ≠ '"' ∧ isMark c = false := by
  simp [isWordChar, and_assoc]

theorem isSpace_of_isWordChar (h : isWordChar c = true) : isSpace c = false := (isWordChar_iff.1 h).1

namespace Standing

theorem behind_mark (h : isMark c = true) : behind c = apart := by
  have hquote : c ≠ '"' := by
    rintro rfl
    cases h
  rw [behind, if_neg hquote, if_pos h]

theorem behind_word (h : isWordChar c = true) : behind c = inWord := by
  obtain ⟨_, hquote, hmark⟩ := isWordChar_iff.1 h
  rw [behind, if_neg hquote, hmark, if_neg Bool.false_ne_true]

theorem next_blank (hs : s.isOutside = true) (hc : isSpace c = true) : s.next c = s.pastBlank := by
  cases s with
  | apart | inWord | pastWord => rw [next, if_pos hc]
  | string | escaped => cases hs

theorem next_solid (hs : s.isOutside = true) (hc : isSpace c = false) : s.next c = behind c := by
  cases s with
  | apart | inWord | pastWord => simp [next, hc]
  | string | escaped => cases hs

theorem isOutside_pastBlank (s : Standing) : s.pastBlank.isOutside = true := by
  cases s <;> rfl

theorem pastBlank_pastBlank (s : Standing) : s.pastBlank.pastBlank = s.pastBlank := by
  cases s <;> rfl

theorem next_word (hs : s.isOutside = true) (hw : isWordChar w = true) : s.next w = inWord := by
  rw [next_solid hs (isSpace_of_isWordChar hw), behind_word hw]

theorem clashes_of_not_word (hc : isWordChar c = false) : s.clashes c = false := by
  rw [clashes, hc, Bool.and_false]

theorem clashes_of_ne (hs : s ≠ pastWord) : s.clashes c = false := by
  rw [clashes, beq_false_of_ne hs, Bool.false_and]

theorem written_blank (hs : s.isOutside = true) (hc : isSpace c = true) : s.written c = [] := by
  rw [written, hs, hc]
  rfl

theorem written_solid (hc : isSpace c = false) (hclash : s.clashes c = false) : s.written c = [c] := by
  rw [written, hc, hclash, Bool.and_false]
  rfl

theorem written_inside (hs : s.isOutside = false) : s.written c = [c] := by
  have hclash : s.clashes c = false := clashes_of_ne (by rintro rfl; cases hs)
  rw [written, hs, hclash]
  rfl

end Standing

open Standing

/-! ## Blanks -/

theorem beginsSolid_dropWhile (x : List Char) : BeginsSolid (x.dropWhile isSpace) := by
  intro c hc
  have hhead := List.head?_dropWhile_not isSpace x
  rw [Option.mem_def.1 hc] at hhead
  simpa using hhead

/-- Nothing is left of blanks outside strings, and they are passed over without a clash. -/
theorem tight_blanks (hgap : IsBlank gap) (hne : gap ≠ []) (hs : s.isOutside = true) (x : List Char) :
    Path s.pastBlank x s (gap ++ x) ∧ tight s (gap ++ x) = tight s.pastBlank x ∧
      (Clashes s (gap ++ x) ↔ Clashes s.pastBlank x) := by
  induction gap generalizing s with
  | nil => exact absurd rfl hne
  | cons c gap ih =>
    rw [IsBlank, List.forall_mem_cons] at hgap
    obtain ⟨hc, hgap⟩ := hgap
    have hclash : s.clashes c = false := clashes_of_not_word (by simp [isWordChar, hc])
    have hnext := next_blank hs hc
    have hrest : Path s.pastBlank x s.pastBlank (gap ++ x) ∧ tight s.pastBlank (gap ++ x) = tight s.pastBlank x ∧
        (Clashes s.pastBlank (gap ++ x) ↔ Clashes s.pastBlank x) := by
      by_cases hgap' : gap = []
      · subst hgap'
        exact ⟨.here, rfl, Iff.rfl⟩
      · have h := ih hgap hgap' (isOutside_pastBlank s)
        rwa [pastBlank_pastBlank] at h
    obtain ⟨hpath, htight, hclashes⟩ := hrest
    refine ⟨.past hclash (by rw [hnext]; exact hpath), ?_, ?_⟩
    · rw [List.cons_append, tight, written_blank hs hc, List.nil_append, hnext, htight]
    · rw [List.cons_append, Clashes, hclash, hnext, hclashes]
      simp

/-- Of the blanks here the one between two words stays. -/
example : tight .apart "[ 1 , 2 3 ]".toList = "[1,2 3]".toList := by decide

/-- Past its blanks a text is the same when tight. -/
theorem tight_dropWhile (hs : s.isOutside = true) (x : List Char) :
    ∃ s', Path s' (x.dropWhile isSpace) s x ∧ tight s x = tight s' (x.dropWhile isSpace) ∧ s'.isOutside = true ∧
      (s = apart → s' = apart) := by
  have hx : x.takeWhile isSpace ++ x.dropWhile isSpace = x := List.takeWhile_append_dropWhile
  by_cases hgap : x.takeWhile isSpace = []
  · rw [hgap, List.nil_append] at hx
    rw [hx]
    exact ⟨s, .here, rfl, hs, id⟩
  · have hblank : IsBlank (x.takeWhile isSpace) := fun c hc => List.mem_takeWhile_imp hc
    obtain ⟨hpath, htight, -⟩ := tight_blanks hblank hgap hs (x.dropWhile isSpace)
    rw [hx] at hpath htight
    exact ⟨s.pastBlank, hpath, htight, isOutside_pastBlank s, fun h => by rw [h]; rfl⟩

/-! ## Past a character -/

/-- The first character of a text that begins with no blank is the first of it when tight. -/
theorem find?_tight (hx : BeginsSolid x) :
    (tight s x).find? (fun c => !isSpace c) = x.head? := by
  cases x with
  | nil => rfl
  | cons c cs =>
    have hc : isSpace c = false := hx c rfl
    have hspace : isSpace ' ' = true := rfl
    rw [tight, written, hc, Bool.and_false, if_neg Bool.false_ne_true]
    split <;> simp [hc, hspace]

/-- The same character comes next in both texts. -/
theorem head?_eq_of_tight (hx : BeginsSolid x) (hy : BeginsSolid y) (h : tight t y = tight s x) :
    y.head? = x.head? := by
  rw [← find?_tight hx, ← find?_tight hy, h]

/-- Past the same character texts are still the same. -/
theorem tight_drop (hs : s.isOutside = true) (ht : t.isOutside = true) (hc : isSpace c = false)
    (h : tight t (c :: y) = tight s (c :: x)) : tight (behind c) y = tight (behind c) x := by
  have hspace : c ≠ ' ' := by
    rintro rfl
    cases hc
  rw [tight, tight, next_solid hs hc, next_solid ht hc, written, written, hc, Bool.and_false, Bool.and_false,
    if_neg Bool.false_ne_true, if_neg Bool.false_ne_true] at h
  cases hclash : s.clashes c <;> cases hclash' : t.clashes c <;> rw [hclash, hclash'] at h
  · exact (List.cons.inj h).2
  · exact absurd (List.cons.inj h).1.symm hspace
  · exact absurd (List.cons.inj h).1 hspace
  · exact (List.cons.inj (List.cons.inj h).2).2

/-! ## Words -/

/-- In a word, or before what may be one. -/
def Ready (s : Standing) (x : List Char) : Prop := s = inWord ∨ s = apart ∧ BeginsSolid x

theorem tight_word (hs : s ≠ pastWord) (hw : isWordChar w = true) (ho : s.isOutside = true) :
    tight s (w :: x) = w :: tight inWord x := by
  rw [tight, written_solid (isSpace_of_isWordChar hw) (clashes_of_ne hs), next_word ho hw]
  rfl

/-- Behind a word and blanks no word goes on. -/
theorem head?_tight_pastWord (x : List Char) : ∀ w ∈ (tight pastWord x).head?, isWordChar w = false := by
  induction x with
  | nil => nofun
  | cons c cs ih =>
    cases hc : isSpace c with
    | true =>
      rw [tight, written_blank rfl hc, next_blank rfl hc]
      exact ih
    | false =>
      have hspace : isWordChar ' ' = false := rfl
      rw [tight, written, hc, Bool.and_false, if_neg Bool.false_ne_true]
      cases hclash : pastWord.clashes c with
      | true => simp [hspace]
      | false =>
        rw [clashes, beq_self_eq_true, Bool.true_and] at hclash
        simp [hclash]

/-- Where a word goes on in one text, it goes on with the same character in the other. -/
theorem word_next (hs : Ready s (w :: x)) (ht : Ready t y) (hw : isWordChar w = true)
    (h : tight t y = tight s (w :: x)) : ∃ y', y = w :: y' ∧ tight inWord y' = tight inWord x := by
  have hword : tight s (w :: x) = w :: tight inWord x := by
    rcases hs with rfl | ⟨rfl, -⟩ <;> exact tight_word (by decide) hw rfl
  rw [hword] at h
  cases y with
  | nil => cases h
  | cons c y' =>
    have hout : t.isOutside = true := by rcases ht with rfl | ⟨rfl, -⟩ <;> rfl
    have hne : t ≠ pastWord := by rcases ht with rfl | ⟨rfl, -⟩ <;> decide
    cases hc : isSpace c with
    | true =>
      -- A blank ends a word, and before one there is no blank.
      rcases ht with rfl | ⟨-, hsolid⟩
      · rw [tight, written_blank rfl hc, next_blank rfl hc] at h
        have hend := head?_tight_pastWord y' w (by rw [show tight pastWord y' = _ from h]; rfl)
        rw [hw] at hend
        cases hend
      · rw [hsolid c rfl] at hc
        cases hc
    | false =>
      rw [tight, written_solid hc (clashes_of_ne hne), next_solid hout hc] at h
      obtain ⟨rfl, htail⟩ := List.cons.inj h
      exact ⟨y', rfl, by rwa [behind_word hw] at htail⟩

/-! ## Strings -/

/-- Inside a string every character counts. -/
theorem inside_next (hs : s.isOutside = false) (h : tight s y = tight s (c :: x)) :
    ∃ y', y = c :: y' ∧ tight (s.next c) y' = tight (s.next c) x := by
  rw [tight, written_inside hs] at h
  cases y with
  | nil => cases h
  | cons d y' =>
    rw [tight, written_inside hs] at h
    obtain ⟨rfl, htail⟩ := List.cons.inj h
    exact ⟨y', rfl, htail⟩

end LineMatch.Json
