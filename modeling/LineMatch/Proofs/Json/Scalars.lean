/-
  LineMatch.Proofs.Json.Scalars — reading strings and numbers, and blanks.

  Inside a string every character counts. A number is one word, so blanks end it wherever
  they stand in it.

  Proved:
  - `stringFrom_cons`: what one character of a string that is read comes to.
  - `follows_restOfString`, `follows_skipString`: strings.
  - `follows_number`, `follows_skipNumber`: numbers.
-/

import LineMatch.Proofs.Json.Document
import LineMatch.Proofs.Json.Follows

namespace LineMatch.Json.Read

open LineMatch.Number (isDigit)

variable {α β : Type} {U : β → Where} {x y : List Char} {s : Standing} {c d : Cursor} {ch w : Char}

/-! ## Strings -/

/-- The standing of a place inside a string. -/
def InString.standing : InString → Standing
  | .plain | .hex _ _ _ _ | .pairBackslash _ => .string
  | .escape | .pairU _ => .escaped

theorem InString.standing_inside (st : InString) : st.standing.isOutside = false := by
  cases st <;> rfl

section

variable {use : StringUse} {st st' : InString} {cs ds : List Char} {e : Cursor}

theorem hexDone_standing {high : Option Nat} {n : Nat} {o : Option Char} (h : hexDone use high n = .ok (o, st)) :
    st.standing = .string := by
  unfold hexDone at h
  split at h
  · cases h
    rfl
  · split at h
    · cases h
    split at h <;> cases h <;> rfl
  · split at h <;> cases h
    rfl

/-- Once a digit was wrong no string is read. -/
theorem stringFrom_bad {high : Option Nat} {bytes value : Nat} :
    stringFrom use (.hex high bytes value false) c cs ≠ .ok (ds, e) := by
  induction cs generalizing c bytes value with
  | nil =>
    intro h
    cases h
  | cons ch cs ih =>
    intro h
    rw [stringFrom] at h
    cases hdigit : hexValue? ch <;> simp only [hdigit] at h <;> split at h
    · exact ih h
    · cases h
    · exact ih h
    · cases h

/-- Reading on from `st'`, with `out` read before. -/
def GoesOn (use : StringUse) (st : InString) (ch : Char) (st' : InString) (out : List Char) : Prop :=
  ∀ d y, stringFrom use st d (ch :: y) = (stringFrom use st' (d.past ch y) y).map fun r => (out ++ r.1, r.2)

theorem goesOn_silent (h : ∀ d y, stringFrom use st d (ch :: y) = stringFrom use st' (d.past ch y) y) :
    GoesOn use st ch st' [] := by
  intro d y
  rw [h]
  cases stringFrom use st' (d.past ch y) y <;> rfl

/-- A hexadecimal digit, the last of four or another one. -/
theorem stringFrom_hex {high : Option Nat} {bytes value : Nat}
    (h : stringFrom use (.hex high bytes value true) c (ch :: x) = .ok (ds, e)) :
    ∃ st' out, st'.standing = Standing.string.next ch ∧ GoesOn use (.hex high bytes value true) ch st' out := by
  cases hdigit : hexValue? ch with
  | none =>
    by_cases hbytes : bytes + Text.width ch < 4
    · simp only [stringFrom, hdigit, hbytes, if_true] at h
      exact absurd h stringFrom_bad
    · simp [stringFrom, hdigit, hbytes] at h
  | some n =>
    obtain ⟨hquote, hbackslash⟩ := plain_of_hexValue? (by rw [hdigit]; rfl)
    have hstanding : Standing.string.next ch = .string := by simp [Standing.next, hquote, hbackslash]
    by_cases hbytes : bytes + Text.width ch < 4
    · exact ⟨.hex high (bytes + Text.width ch) (value * 16 + n) true, [], hstanding.symm,
        goesOn_silent fun d y => by simp [stringFrom, hdigit, hbytes]⟩
    cases hdone : hexDone use high (value * 16 + n) with
    | error cause => simp [stringFrom, hdigit, hbytes, hdone] at h
    | ok r =>
      obtain ⟨o, st'⟩ := r
      have hst' : st'.standing = Standing.string.next ch := (hexDone_standing hdone).trans hstanding.symm
      cases o with
      | none => exact ⟨st', [], hst', goesOn_silent fun d y => by simp [stringFrom, hdigit, hbytes, hdone]⟩
      | some out => exact ⟨st', [out], hst', fun d y => by simp [stringFrom, hdigit, hbytes, hdone]⟩

/-- A character of a string that is read closes it, or goes on to the rest of it. -/
theorem stringFrom_cons (h : stringFrom use st c (ch :: x) = .ok (ds, e)) :
    st = .plain ∧ ch = '"' ∧ ds = [] ∧ e.rest = x ∨
    ∃ st' out, st'.standing = st.standing.next ch ∧ GoesOn use st ch st' out := by
  cases st with
  | plain =>
    by_cases hquote : ch = '"'
    · subst hquote
      rw [stringFrom, if_pos rfl] at h
      cases h
      exact .inl ⟨rfl, rfl, rfl, rest_past⟩
    refine .inr ?_
    by_cases hbackslash : ch = '\\'
    · subst hbackslash
      exact ⟨.escape, [], rfl, goesOn_silent fun d y => by simp [stringFrom]⟩
    · have hcontrol : ¬ch.toNat < 0x20 := by
        intro hcontrol
        simp [stringFrom, hquote, hbackslash, hcontrol] at h
      refine ⟨.plain, [ch], by simp [InString.standing, Standing.next, hquote, hbackslash], fun d y => ?_⟩
      simp [stringFrom, hquote, hbackslash, hcontrol]
  | escape =>
    refine .inr ?_
    by_cases hu : ch = 'u'
    · subst hu
      exact ⟨.hex none 0 0 true, [], rfl, goesOn_silent fun d y => by simp [stringFrom]⟩
    · cases hch : escaped? ch with
      | none => simp [stringFrom, hu, hch] at h
      | some out => exact ⟨.plain, [out], rfl, fun d y => by simp [stringFrom, hu, hch]⟩
  | hex high bytes value good =>
    cases good with
    | false => exact absurd h stringFrom_bad
    | true => exact .inr (stringFrom_hex h)
  | pairBackslash high =>
    refine .inr ?_
    by_cases hbackslash : ch = '\\'
    · subst hbackslash
      exact ⟨.pairU high, [], rfl, goesOn_silent fun d y => by simp [stringFrom]⟩
    · simp [stringFrom, hbackslash] at h
  | pairU high =>
    refine .inr ?_
    by_cases hu : ch = 'u'
    · subst hu
      exact ⟨.hex (some high) 0 0 true, [], rfl, goesOn_silent fun d y => by simp [stringFrom]⟩
    · simp [stringFrom, hu] at h

theorem follow_stringFrom (h : stringFrom use st c x = .ok (ds, e)) :
    Path .apart e.rest st.standing x ∧ ∀ y d, tight st.standing y = tight st.standing x →
      ∃ e', stringFrom use st d y = .ok (ds, e') ∧ tight .apart e'.rest = tight .apart e.rest := by
  induction x generalizing st c ds with
  | nil => cases h
  | cons ch x ih =>
    rcases stringFrom_cons h with ⟨rfl, rfl, rfl, hrest⟩ | ⟨st', out, hstanding, hgo⟩
    · have hnext : InString.plain.standing.next '"' = .apart := rfl
      refine ⟨.past (Standing.clashes_of_not_word rfl) (by rw [hnext, hrest]; exact .here), fun y d hsame => ?_⟩
      obtain ⟨y', rfl, htight⟩ := inside_next rfl hsame
      rw [hnext] at htight
      exact ⟨d.past '"' y', rfl, by rw [rest_past, htight, hrest]⟩
    · rw [hgo] at h
      cases hx : stringFrom use st' (c.past ch x) x with
      | error => rw [hx] at h; cases h
      | ok r =>
        rw [hx] at h
        cases h
        obtain ⟨hpath, hsame⟩ := ih hx
        have hclash : st.standing.clashes ch = false := by
          refine Standing.clashes_of_ne ?_
          cases st <;> nofun
        refine ⟨.past hclash (hstanding ▸ hpath), fun y d htight => ?_⟩
        obtain ⟨y', rfl, htight'⟩ := inside_next st.standing_inside htight
        obtain ⟨e', he', hend⟩ := hsame y' (d.past ch y') (by rw [hstanding, htight'])
        exact ⟨e', by rw [hgo, he']; rfl, hend⟩

/-- A string past its opening quote, whatever is made of its characters. -/
theorem follows_stringFrom (g : List Char → α) :
    Follows Quoted (fun c => (stringFrom use .plain c c.rest).map fun r => (g r.1, r.2)) fun _ => Apart := by
  rintro s c a c' rfl h
  dsimp only at h ⊢
  cases hread : stringFrom use .plain c c.rest with
  | error => rw [hread] at h; cases h
  | ok r =>
    rw [hread] at h
    cases h
    obtain ⟨hpath, hsame⟩ := follow_stringFrom hread
    refine ⟨.apart, hpath, rfl, ?_⟩
    rintro t d rfl htight
    obtain ⟨e', he', hend⟩ := hsame d.rest d htight
    exact ⟨.apart, e', by rw [he']; rfl, rfl, hend⟩

theorem follows_restOfString : Follows Quoted restOfString fun _ => Apart := follows_stringFrom String.ofList

theorem follows_skipString : Follows Quoted skipString fun _ => Apart := follows_stringFrom fun _ => ()

end

/-! ## Numbers -/

section

variable {isNegative : Bool} {n more : Nat} {start : Int}

theorem follows_realOf {e : Int} : Follows InWord (realOf isNegative n e) fun _ => InWord := by
  unfold realOf
  split
  · exact .pure fun _ _ => id
  · exact follows_failHere

theorem isDigit_of_not_word (h : isWordChar ch = false) : isDigit ch = false := by
  by_contra hdigit
  rw [isWordChar_of_isDigit (by simpa using hdigit)] at h
  cases h

/-- A digit is taken where one must stand. -/
theorem follows_nextDigit {f : Option Char → Read β} (hdigit : ∀ d, isDigit d = true → Follows InWord (f (some d)) U)
    (hother : ∀ o, (∀ d ∈ o, isDigit d = false) → Ensures (f o) fun _ => False) : Follows Ready (next >>= f) U := by
  refine follows_next (fun d hd => ?_) fun o ho => hother o fun d hd => isDigit_of_not_word (ho d hd)
  by_cases h : isDigit d = true
  · exact hdigit d h
  · refine .never (hother (some d) ?_)
    rintro _ ⟨⟩
    simpa using h

/-- Past the point of a fraction, the letter of an exponent or its sign. -/
theorem follows_inWord (hw : isWordChar w = true) : Follows (Before (· = .inWord) (some w)) drop fun _ => InWord :=
  follows_dropWord (.inr rfl) hw

theorem Before.word {o : Option Char} (h : Before (· = .inWord) o s x) : InWord s x := h.1

theorem follows_exponentSign : Follows InWord exponentSign fun _ => InWord := by
  refine follows_peek (fun c hc => ?_) (.pure fun _ _ => id) fun w hw => ?_
  · split
    · next h => cases h; cases hc
    · next h => cases h; cases hc
    · rfl
  · split
    · exact (follows_inWord hw).bind fun _ => .pure fun _ _ => id
    · exact (follows_inWord hw).bind fun _ => .pure fun _ _ => id
    · exact .pure fun _ _ => Before.word

theorem follows_withExponent (h : isWordChar w = true) :
    Follows (Before (· = .inWord) (some w)) (withExponent isNegative n start) fun _ => InWord := by
  refine (follows_inWord h).bind fun _ => follows_exponentSign.bind fun down => ?_
  refine (follows_nextDigit (fun d hd => ?_) fun o ho => ?_).from fun _ _ => .inl
  · simp only [hd, Bool.not_true, Bool.false_eq_true, if_false]
    refine follows_digits.bind fun digits => ?_
    split
    · exact follows_realOf
    · split
      · exact follows_failHere
      · exact .pure fun _ _ => id
  · cases o with
    | none => exact ensures_failHere
    | some d =>
      simp only [ho d rfl, Bool.not_false, if_true]
      exact ensures_failHere

theorem follows_withFraction (h : isWordChar w = true) :
    Follows (Before (· = .inWord) (some w)) (withFraction isNegative n start) fun _ => InWord := by
  refine (follows_inWord h).bind fun _ => follows_digits.bind fun digits => ?_
  split
  · refine .never (.after fun next => ?_)
    split <;> exact ensures_failNext
  · refine follows_peek (fun c hc => ?_) follows_realOf fun w hw => ?_
    · split
      · next h => cases h; cases hc
      · next h => cases h; cases hc
      · rfl
    · split
      · exact follows_withExponent hw
      · exact follows_withExponent hw
      · exact follows_realOf.from fun _ _ => Before.word

theorem follows_digitsAfter {d : Char} : Follows InWord (digitsAfter d) fun _ => InWord := by
  unfold digitsAfter
  split
  · refine follows_peek (fun c hc => ?_) (.pure fun _ _ => id) fun w hw => ?_
    · simp only [isDigit_of_not_word hc, Bool.false_eq_true, if_false]
    · dsimp only
      split
      · exact follows_failNext
      · exact .pure fun _ _ => Before.word
  · exact follows_digits

theorem follows_afterDigits : Follows InWord (afterDigits isNegative n more) fun _ => InWord := by
  have hend : Follows InWord (if more ≠ 0 then realOf isNegative n more
      else if !isNegative then pure (.nat n)
      else if n = 0 ∨ Nat.pow 2 63 < n then realOf true n 0
      else pure (.negative n)) fun _ => InWord := by
    split
    · exact follows_realOf
    split
    · exact .pure fun _ _ => id
    split
    · exact follows_realOf
    · exact .pure fun _ _ => id
  refine follows_peek (fun c hc => ?_) hend fun w hw => ?_
  · split
    · next h => cases h; cases hc
    · next h => cases h; cases hc
    · next h => cases h; cases hc
    · rfl
  · split
    · exact follows_withFraction hw
    · exact follows_withExponent hw
    · exact follows_withExponent hw
    · exact hend.from fun _ _ => Before.word

theorem follows_number : Follows Ready (number isNegative) fun _ => InWord := by
  refine follows_nextDigit (fun d hd => ?_) fun o ho => ?_
  · simp only [hd, Bool.not_true, Bool.false_eq_true, if_false]
    exact follows_digitsAfter.bind fun digits => follows_afterDigits
  · cases o with
    | none => exact ensures_failHere
    | some d =>
      simp only [ho d rfl, Bool.not_false, if_true]
      exact ensures_failHere

/-- The digits of a skipped exponent. -/
def skipDigits : Read Unit := do
  match ← next with
  | some d => if isDigit d then discard (takeWhile isDigit) else failHere .invalidNumber
  | none => failHere .invalidNumber

theorem follows_skipDigits : Follows InWord skipDigits fun _ => InWord := by
  refine (follows_nextDigit (fun d hd => ?_) fun o ho => ?_).from fun _ _ => .inl
  · simp only [hd, if_true]
    exact follows_discard follows_digits
  · cases o with
    | none => exact ensures_failHere
    | some d =>
      simp only [ho d rfl, Bool.false_eq_true, if_false]
      exact ensures_failHere

theorem follows_skipExponent (h : isWordChar w = true) :
    Follows (Before (· = .inWord) (some w)) skipExponent fun _ => InWord := by
  refine (follows_inWord h).bind fun _ => follows_peek (fun c hc => ?_) follows_skipDigits fun w hw => ?_
  · split
    · next h => cases h; cases hc
    · next h => cases h; cases hc
    · rfl
  · dsimp only
    split
    · exact (follows_inWord hw).bind fun _ => follows_skipDigits
    · exact (follows_inWord hw).bind fun _ => follows_skipDigits
    · exact follows_skipDigits.from fun _ _ => Before.word

theorem follows_skipFraction (h : isWordChar w = true) :
    Follows (Before (· = .inWord) (some w)) skipFraction fun _ => InWord := by
  refine (follows_inWord h).bind fun _ => follows_digits.bind fun digits => ?_
  split
  · exact follows_failNext
  · refine follows_peek (fun c hc => ?_) (.pure fun _ _ => id) fun w hw => ?_
    · split
      · next h => cases h; cases hc
      · next h => cases h; cases hc
      · rfl
    · split
      · exact follows_skipExponent hw
      · exact follows_skipExponent hw
      · exact .pure fun _ _ => Before.word

/-- What follows the digits of a skipped number. -/
def skipParts : Read Unit := do
  match ← peek with
  | some '.' => skipFraction
  | some 'e' | some 'E' => skipExponent
  | _ => pure ()

theorem follows_skipParts : Follows InWord skipParts fun _ => InWord := by
  refine follows_peek (fun c hc => ?_) (.pure fun _ _ => id) fun w hw => ?_
  · split
    · next h => cases h; cases hc
    · next h => cases h; cases hc
    · next h => cases h; cases hc
    · rfl
  · split
    · exact follows_skipFraction hw
    · exact follows_skipExponent hw
    · exact follows_skipExponent hw
    · exact .pure fun _ _ => Before.word

theorem follows_skipNumber : Follows Ready skipNumber fun _ => InWord := by
  refine follows_nextDigit (fun d hd => ?_) fun o ho => ?_
  · simp only [hd, Bool.not_true, Bool.false_eq_true, if_false]
    split
    · refine follows_peek (fun c hc => ?_) follows_skipParts fun w hw => ?_
      · simp only [isDigit_of_not_word hc, Bool.false_eq_true, if_false]
      · dsimp only
        split
        · exact follows_failNext.bind fun _ => follows_skipParts
        · exact follows_skipParts.from fun _ _ => Before.word
    · exact (follows_discard follows_digits).bind fun _ => follows_skipParts
  · cases o with
    | none => exact ensures_failHere
    | some d =>
      simp only [ho d rfl, Bool.not_false, if_true]
      exact ensures_failHere

end

end LineMatch.Json.Read
