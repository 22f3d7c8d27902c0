/-
  LineMatch.Proofs.Pattern.Stepping — reading one item with an ending behind it.

  The readers of repetitions, flags and groups on a text and the same with the ending behind
  it, and from them a step of the parser (`extends_step`). A step takes a character at
  least. It may go on into the ending where an escape or flags do, and is then past the
  parenthesis, or before the brace of a count that cannot be read (`Past`); no group is
  closed by it.
-/

import LineMatch.Proofs.Pattern.Brackets

namespace LineMatch.Pattern

open LineMatch.Text

variable {engine : Engine} {c : Char} {cs cs' rest rest' : List Char} {f : Flags} {n : Nat}

/-! ## Repetitions -/

theorem same_digitsFrom (h : Ended cs cs') (hlength : cs.length ≤ n) {fuel fuel' : Nat} (hfuel : cs.length < fuel)
    (hfuel' : cs'.length < fuel') : Same n (digitsFrom f fuel cs) (digitsFrom f fuel' cs') := by
  refine h.rounds f (P := fun k k' cs cs' => Same n (digitsFrom f k cs) (digitsFrom f k' cs')) ?_ ?_
    hlength hfuel hfuel'
  · intro k k' cs' h
    rcases h.nil_or with rfl | rfl
    · exact ⟨rfl, h, Nat.zero_le n⟩
    · exact ⟨rfl, h, Nat.zero_le n⟩
  · intro k k' c rest hlt hmore
    rw [digitsFrom, digitsFrom]
    split
    · exact ⟨congrArg (c :: ·) hmore.value, hmore.ended, hmore.length⟩
    · exact ⟨rfl, ended_cons c rest, hlt⟩

theorem Ended.dropBlanks (h : Ended cs cs') : Ended (cs.dropWhile isBlank) (cs'.dropWhile isBlank) := by
  induction cs generalizing cs' with
  | nil =>
    rcases h.nil_or with rfl | rfl
    · exact .inl rfl
    · exact .inr ⟨rfl, rfl⟩
  | cons c rest ih =>
    obtain ⟨rest', rfl, hrest⟩ := h.cons
    rw [List.dropWhile_cons, List.dropWhile_cons]
    split
    · exact ih hrest
    · exact h

theorem length_dropBlanks_le (cs : List Char) : (cs.dropWhile isBlank).length ≤ cs.length :=
  (List.dropWhile_suffix isBlank).length_le

theorem same_count (h : Ended cs cs') (hlength : cs.length ≤ n) : Same n (count f cs) (count f cs') := by
  have hle := length_dropBlanks_le cs
  have hblanks := h.dropBlanks
  unfold count
  generalize cs.dropWhile isBlank = xs at hle hblanks
  generalize cs'.dropWhile isBlank = xs' at hblanks
  have hdigits : Same n (digitsFrom f (xs.length + 1) xs) (digitsFrom f (xs'.length + 1) xs') :=
    same_digitsFrom hblanks (by omega) (Nat.lt_succ_self _) (Nat.lt_succ_self _)
  refine ⟨congrArg (fun ds => (LineMatch.Number.natOf? ds).filter (· ≤ maxCount)) hdigits.value,
    hdigits.ended.dropBlanks.ahead, ?_⟩
  exact Nat.le_trans (length_ahead_le f _) (Nat.le_trans (length_dropBlanks_le _) hdigits.length)

theorem count_ending : (count f ending).1 = none := (same_count (ended_append []) (Nat.le_refl 0)).value

theorem most_nil {least : Option Nat} (h : f.ahead cs = []) : most? f least cs = none := by
  simp only [most?, h]

theorem most_cons {least : Option Nat} (h : f.ahead cs = c :: rest) : most? f least cs =
    if c = '}' then (do pure ((← least, none), c :: rest))
    else (do pure ((← least, some (← (count f (c :: rest)).1)), (count f (c :: rest)).2)) := by
  simp only [most?, h]

theorem extends_most {least : Option Nat} (h : Ended cs cs') (hlength : cs.length ≤ n) :
    Extends (Same n) Nowhere (most? f least cs) (most? f least cs') := by
  rcases h.next f with ⟨hcs, hcs'⟩ | ⟨c, rest, hcs, hcs', hlt⟩
  · rw [most_nil hcs]
    rcases hcs' with hcs' | hcs'
    · have hcount : (count f [')', '$']).1 = none := count_ending
      rw [most_cons hcs', if_neg (by decide), hcount]
      cases least with
      | none => exact .neither
      | some n => exact .neither
    · rw [most_nil hcs']
      exact .neither
  · have hlength' : (c :: rest).length ≤ n := by rw [List.length_cons]; omega
    rw [most_cons hcs, most_cons hcs']
    split
    · exact .step fun lo => .both ⟨rfl, ended_cons c rest, hlength'⟩
    · have hcount := same_count (f := f) (ended_cons c rest) hlength'
      rw [hcount.value]
      exact .step fun lo => .step fun hi => .both ⟨rfl, hcount.ended, hcount.length⟩

theorem bounds_comma {least : Option Nat} (h : count f cs = (least, ',' :: rest)) :
    bounds? f cs = most? f least rest := by
  simp only [bounds?, h]

theorem bounds_ne {least : Option Nat} (h : count f cs = (least, rest)) (hc : rest.head? ≠ some ',') :
    bounds? f cs = (do pure ((← least, some (← least)), rest)) := by
  unfold bounds?
  rw [h]
  split
  · next heq =>
    cases heq
    exact absurd rfl hc
  · next heq =>
    cases heq
    cases least with
    | none => rfl
    | some n => rfl

theorem extends_bounds (h : Ended cs cs') (hlength : cs.length ≤ n) :
    Extends (Same n) Nowhere (bounds? f cs) (bounds? f cs') := by
  have hcount := same_count (f := f) h hlength
  rcases hcs : count f cs with ⟨least, r⟩
  rcases hcs' : count f cs' with ⟨least', r'⟩
  rw [hcs, hcs'] at hcount
  obtain ⟨rfl, hr, hrle⟩ := hcount
  dsimp only at hr hrle
  by_cases hc : r.head? = some ','
  · obtain ⟨rest, rfl⟩ := List.head?_eq_some_iff.1 hc
    obtain ⟨rest', rfl, hrest⟩ := hr.cons
    rw [List.length_cons] at hrle
    rw [bounds_comma hcs, bounds_comma hcs']
    exact extends_most hrest (by omega)
  · have hc' : r'.head? ≠ some ',' := mt (hr.head_eq_iff (by decide)).1 hc
    rw [bounds_ne hcs hc, bounds_ne hcs' hc']
    exact .step fun lo => .step fun hi => .both ⟨rfl, hr, hrle⟩

theorem afterMark_ne (hc : cs.head? ≠ some '?') : afterMark cs = cs := by
  unfold afterMark
  split
  · exact absurd rfl hc
  · rfl

theorem Ended.afterMark (h : Ended cs cs') : Ended (afterMark cs) (afterMark cs') := by
  by_cases hc : cs.head? = some '?'
  · obtain ⟨rest, rfl⟩ := List.head?_eq_some_iff.1 hc
    obtain ⟨rest', rfl, hrest⟩ := h.cons
    exact hrest
  · have hc' : cs'.head? ≠ some '?' := mt (h.head_eq_iff (by decide)).1 hc
    rw [afterMark_ne hc, afterMark_ne hc']
    exact h

theorem length_afterMark_le (cs : List Char) : (afterMark cs).length ≤ cs.length := by
  unfold afterMark
  split
  · exact Nat.le_succ _
  · exact Nat.le_refl _

theorem closeCount_ne {least : Nat} {most : Option Nat} (hc : cs.head? ≠ some '}') :
    closeCount? f least most cs = none := by
  unfold closeCount?
  split
  · exact absurd rfl hc
  · rfl

theorem extends_closeCount {least : Nat} {most : Option Nat} (h : Ended cs cs') (hlength : cs.length ≤ n) :
    Extends (Same₂ n) Nowhere (closeCount? f least most cs) (closeCount? f least most cs') := by
  by_cases hc : cs.head? = some '}'
  · obtain ⟨rest, rfl⟩ := List.head?_eq_some_iff.1 hc
    obtain ⟨rest', rfl, hrest⟩ := h.cons
    have hle := Nat.le_trans (length_afterMark_le (f.ahead rest)) (length_ahead_le f rest)
    rw [List.length_cons] at hlength
    rw [closeCount?, closeCount?]
    split
    · exact .both ⟨rfl, rfl, hrest.ahead.afterMark, by dsimp only; omega⟩
    · exact .neither
  · have hc' : cs'.head? ≠ some '}' := mt (h.head_eq_iff (by decide)).1 hc
    rw [closeCount_ne hc, closeCount_ne hc']
    exact .neither

theorem counted_nil (h : f.ahead cs = []) : counted f cs = none := by
  simp only [counted, h]

theorem counted_cons (h : f.ahead cs = c :: rest) : counted f cs = (do
    let ((least, most), rest) ← bounds? f (c :: rest)
    closeCount? f least most rest) := by
  simp only [counted, h]

theorem bounds_ending : bounds? f ending = none := by
  have hcount : count f [] = (none, []) := Prod.ext rfl ahead_nil
  have hnil : bounds? f [] = none := bounds_ne hcount nofun
  have hextends := extends_bounds (f := f) (ended_append []) (Nat.le_refl 0)
  rw [hnil] at hextends
  exact hextends.eq_none

/-- The ending is no count. -/
theorem counted_ending (h : f.ahead cs = ending) : counted f cs = none := by
  have hnone : bounds? f [')', '$'] = none := bounds_ending
  rw [counted_cons h, hnone]
  rfl

theorem extends_counted (h : Ended cs cs') (hlength : cs.length ≤ n) :
    Extends (Same₂ n) Nowhere (counted f cs) (counted f cs') := by
  rcases h.next f with ⟨hcs, hcs'⟩ | ⟨c, rest, hcs, hcs', hlt⟩
  · rw [counted_nil hcs]
    rcases hcs' with hcs' | hcs'
    · rw [counted_ending hcs']
      exact .neither
    · rw [counted_nil hcs']
      exact .neither
  · have hlength' : (c :: rest).length ≤ n := by rw [List.length_cons]; omega
    rw [counted_cons hcs, counted_cons hcs']
    refine (extends_bounds (ended_cons c rest) hlength').bind ?_ nofun
    rintro ⟨bounds, r⟩ ⟨bounds', r'⟩ ⟨hbounds, hr, hrle⟩
    cases hbounds
    exact extends_closeCount hr hrle

/-! ## Flags and names -/

theorem extends_readFlags {seen : List Char} {value fresh : Bool} (h : Ended cs cs') (hlength : cs.length ≤ n) :
    Extends (Same₂ n) (fun p => p.2.2 = ending) (readFlags f seen value fresh cs)
      (readFlags f seen value fresh cs') := by
  induction cs generalizing f seen value fresh cs' n with
  | nil =>
    rcases h.nil_or with rfl | rfl
    · cases fresh with
      | true => exact .over rfl
      | false => exact .neither
    · exact .neither
  | cons c rest ih =>
    obtain ⟨rest', rfl, hrest⟩ := h.cons
    have hle : rest.length ≤ n := Nat.le_trans (Nat.le_succ _) hlength
    rw [readFlags, readFlags]
    split
    · split
      · exact .both ⟨rfl, rfl, h, hlength⟩
      · exact .neither
    split
    · exact .neither
    split
    · exact ih hrest hle
    · exact .step fun g => ih hrest hle

theorem groupName_cut {rest : List Char} (h : cs.drop (cs.takeWhile (· != '>')).length = '>' :: rest) :
    groupName? cs =
      if isGroupName (cs.takeWhile (· != '>')) then some (cs.takeWhile (· != '>'), rest) else none := by
  simp only [groupName?, h]

theorem extends_groupName (h : Ended cs cs') (hlength : cs.length ≤ n) :
    Extends (Same n) Nowhere (groupName? cs) (groupName? cs') := by
  rcases h.cut (m := '>') (by decide) (by decide) with ⟨hcs, hcs'⟩ | ⟨hname, rest, rest', hrest, hcs, hcs'⟩
  · simp only [groupName?, hcs, hcs']
    exact .neither
  · have hle := length_lt_of_drop hcs
    rw [groupName_cut hcs, groupName_cut hcs', hname]
    split
    · exact .both ⟨rfl, hrest, by dsimp only; omega⟩
    · exact .neither

/-! ## Groups -/

/-- The same state but for the text left. -/
structure SameState (n : Nat) (s s' : State) : Prop where
  same : s' = { s with rest := s'.rest }
  ended : Ended s.rest s'.rest
  length : s.rest.length ≤ n

/-- Past the parenthesis of the ending, or before a brace with nothing but the ending behind
    it, in the groups `outer`. -/
structure Past (outer : List Begun) (s : State) : Prop where
  outer : s.outer = outer
  rest : s.rest <:+ ['$'] ∨ ∃ rest, s.rest = '{' :: rest ∧ s.flags.ahead rest = ending

variable {s : State}

theorem extends_openNamed (h : Ended cs cs') (hlength : cs.length ≤ n) :
    Extends (SameState n) Nowhere (s.openNamed? cs) (s.openNamed? cs') := by
  refine (extends_groupName h hlength).bind ?_ nofun
  rintro ⟨name, r⟩ ⟨name', r'⟩ ⟨rfl, hr, hrle⟩
  dsimp only
  split
  · exact .neither
  · exact .both ⟨rfl, hr, hrle⟩

theorem withFlags_ne {inner : Flags} {seen : List Char} (hclose : c ≠ ')') (hcolon : c ≠ ':') :
    s.withFlags? inner seen (c :: rest) = none := by
  unfold State.withFlags?
  split
  · next heq => exact absurd (List.cons.inj heq).1 hclose
  · next heq => exact absurd (List.cons.inj heq).1 hcolon
  · rfl

theorem extends_withFlags {inner : Flags} {seen : List Char} (h : Ended cs cs') (hlength : cs.length ≤ n) :
    Extends (SameState n) (Past s.outer) (s.withFlags? inner seen cs) (s.withFlags? inner seen cs') := by
  cases cs with
  | nil =>
    rcases h.nil_or with rfl | rfl
    · rw [ending, State.withFlags?]
      split
      · exact .neither
      · exact .over ⟨rfl, .inl (List.suffix_refl _)⟩
    · exact .neither
  | cons c rest =>
    obtain ⟨rest', rfl, hrest⟩ := h.cons
    rw [List.length_cons] at hlength
    by_cases hclose : c = ')'
    · subst hclose
      rw [State.withFlags?, State.withFlags?]
      split
      · exact .neither
      · exact .both ⟨rfl, hrest, by dsimp only; omega⟩
    by_cases hcolon : c = ':'
    · subst hcolon
      exact .both ⟨rfl, hrest, by dsimp only [State.open]; omega⟩
    · rw [withFlags_ne hclose hcolon, withFlags_ne hclose hcolon]
      exact .neither

theorem extends_setFlags (h : Ended cs cs') (hlength : cs.length ≤ n) :
    Extends (SameState n) (Past s.outer) (s.setFlags? cs) (s.setFlags? cs') := by
  refine (extends_readFlags h hlength).bind ?_ ?_
  · rintro ⟨inner, seen, r⟩ ⟨inner', seen', r'⟩ ⟨rfl, hsame⟩
    obtain ⟨rfl, hr, hrle⟩ := hsame
    exact extends_withFlags hr hrle
  · rintro ⟨inner, seen, r⟩ rfl
    exact extends_withFlags (n := n) (ended_append []) (Nat.zero_le n)

/-- Groups begin alike. -/
inductive Opening.Alike (n : Nat) : Opening → Opening → Prop
  | lookAround : Alike n .lookAround .lookAround
  | named {cs cs' : List Char} : Ended cs cs' → cs.length ≤ n → Alike n (.named cs) (.named cs')
  | flags {cs cs' : List Char} : Ended cs cs' → cs.length ≤ n → Alike n (.flags cs) (.flags cs')
  | plain {cs cs' : List Char} : Ended cs cs' → cs.length ≤ n → Alike n (.plain cs) (.plain cs')

theorem alike_behindAngle (h : Ended cs cs') (hlength : cs.length ≤ n) :
    Opening.Alike n (behindAngle cs) (behindAngle cs') := by
  unfold behindAngle
  simp only [h.head_eq_iff (by decide : '=' ≠ ')'), h.head_eq_iff (by decide : '!' ≠ ')')]
  split
  · exact .lookAround
  · exact .named h hlength

theorem opening_ne (hc : c ≠ '?') : opening (c :: rest) = .plain (c :: rest) := by
  unfold opening
  split
  · next heq => exact absurd (List.cons.inj heq).1 hc
  · next heq => exact absurd (List.cons.inj heq).1 hc
  · rfl

theorem alike_opening (h : Ended cs cs') (hlength : cs.length ≤ n) :
    Opening.Alike n (opening cs) (opening cs') := by
  cases cs with
  | nil =>
    rcases h.nil_or with rfl | rfl
    · exact .plain h hlength
    · exact .plain h hlength
  | cons c more =>
    obtain ⟨more', rfl, hmore⟩ := h.cons
    rw [List.length_cons] at hlength
    by_cases hc : c = '?'
    · subst hc
      cases more with
      | nil =>
        rcases hmore.nil_or with rfl | rfl
        · exact .flags hmore (Nat.zero_le n)
        · exact .flags hmore (Nat.zero_le n)
      | cons d rest =>
        obtain ⟨rest', rfl, hrest⟩ := hmore.cons
        rw [List.length_cons] at hlength
        simp only [opening, hrest.head_eq_iff (by decide : '<' ≠ ')')]
        split
        · exact .lookAround
        split
        · exact alike_behindAngle hrest (by omega)
        split
        · next hname =>
          obtain ⟨name, rfl⟩ := List.head?_eq_some_iff.1 hname.2
          obtain ⟨name', rfl, hname⟩ := hrest.cons
          rw [List.length_cons] at hlength
          exact .named hname (by dsimp only [List.tail_cons]; omega)
        · exact .flags hmore (by rw [List.length_cons]; omega)
    · rw [opening_ne hc, opening_ne hc]
      exact .plain h (by rw [List.length_cons]; omega)

theorem extends_openGroup (h : Ended cs cs') (hlength : cs.length ≤ n) :
    Extends (SameState n) (Past s.outer) (s.openGroup? cs) (s.openGroup? cs') := by
  have hopening := alike_opening (h.ahead (f := s.flags)) (Nat.le_trans (length_ahead_le _ _) hlength)
  unfold State.openGroup?
  generalize opening (s.flags.ahead cs) = o at hopening
  generalize opening (s.flags.ahead cs') = o' at hopening
  cases hopening with
  | lookAround => exact .neither
  | named h hlength => exact (extends_openNamed h hlength).mono (fun _ _ => id) nofun
  | flags h hlength => exact extends_setFlags h hlength
  | plain h hlength => exact .both ⟨rfl, h, hlength⟩

theorem extends_closeGroup (h : Ended cs cs') (hlength : cs.length ≤ n) :
    Extends (SameState n) (Past s.outer) (s.closeGroup? cs) (s.closeGroup? cs') := by
  unfold State.closeGroup?
  split
  · exact .neither
  · exact .both ⟨rfl, h, hlength⟩

/-! ## Items -/

theorem extends_repeat {least : Nat} {most : Option Nat} (h : Ended cs cs') (hlength : cs.length ≤ n) :
    Extends (SameState n) (Past s.outer) (s.repeat? least most cs) (s.repeat? least most cs') := by
  unfold State.repeat?
  split
  · exact .neither
  split
  · exact .both ⟨rfl, h, hlength⟩
  · exact .neither

/-- An escape as an item. -/
theorem extends_pushEscape (h : Ended cs cs') (hlength : cs.length ≤ n) :
    Extends (SameState n) (Past s.outer)
      (do let (a, rest) ← escape engine s.flags cs; pure (s.push (← atomExpr? s.flags a) 0 rest))
      (do let (a, rest) ← escape engine s.flags cs'; pure (s.push (← atomExpr? s.flags a) 0 rest)) := by
  refine (extends_escape h hlength).bind ?_ ?_
  · rintro ⟨a, r⟩ ⟨a', r'⟩ ⟨rfl, hr, hrle⟩
    exact .step fun e => .both ⟨rfl, hr, hrle⟩
  · rintro ⟨a, r⟩ hpast t ht
    obtain ⟨e, -, ht⟩ := Option.bind_eq_some_iff.1 ht
    cases ht
    rcases hpast with hr | ⟨q, rest, hr, hrest⟩
    · exact ⟨rfl, .inl hr⟩
    · cases hr
      exact ⟨rfl, .inr ⟨rest, rfl, hrest⟩⟩

theorem extends_step (engine : Engine) (h : Ended cs cs') :
    Extends (SameState cs.length) (Past s.outer) (s.step? engine c cs) (s.step? engine c cs') := by
  have hpush (e : Expr) (depth : Nat) :
      Extends (SameState cs.length) (Past s.outer) (some (s.push e depth cs)) (some (s.push e depth cs')) :=
    .both ⟨rfl, h, Nat.le_refl _⟩
  have hrepeat (least : Nat) (most : Option Nat) : Extends (SameState cs.length) (Past s.outer)
      (s.repeat? least most (afterMark cs)) (s.repeat? least most (afterMark cs')) :=
    extends_repeat h.afterMark (length_afterMark_le cs)
  unfold State.step?
  dsimp only
  split
  · exact extends_openGroup h (Nat.le_refl _)
  · exact extends_closeGroup h (Nat.le_refl _)
  · exact .both ⟨rfl, h, Nat.le_refl _⟩
  · refine (extends_bracketed h (Nat.le_refl _)).bind ?_ nofun
    rintro ⟨k, depth, r⟩ ⟨k', depth', r'⟩ ⟨rfl, rfl, hr, hrle⟩
    exact .both ⟨rfl, hr, hrle⟩
  iterate 3 exact hrepeat _ _
  · refine (extends_counted h (Nat.le_refl _)).bind ?_ nofun
    rintro ⟨least, most, r⟩ ⟨least', most', r'⟩ ⟨rfl, rfl, hr, hrle⟩
    exact extends_repeat hr hrle
  · exact extends_pushEscape h (Nat.le_refl _)
  · exact .step fun e => hpush e 0
  iterate 3 exact hpush _ _

end LineMatch.Pattern
