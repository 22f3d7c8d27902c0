/-
  LineMatch.Proofs.Pattern.Brackets — reading a bracketed class with an ending behind it.

  Each reader of a class is compared on a text and the same with the ending behind it. What
  the first reads the second reads alike. An item at the end of the text may take the
  parenthesis of the ending as its member, but the class it stands in is then never closed
  (`classBody_ending`), so that nothing is read into the ending (`extends_bracketed`).
-/

import LineMatch.Proofs.Pattern.Ending

namespace LineMatch.Pattern

variable {engine : Engine} {c : Char} {cs cs' rest rest' : List Char} {f : Flags} {n : Nat}

theorem same_caret (h : Ended cs cs') (hlength : cs.length ≤ n) : Same n (caret cs) (caret cs') := by
  cases cs with
  | nil =>
    rcases h.nil_or with rfl | rfl
    · exact ⟨rfl, h, hlength⟩
    · exact ⟨rfl, h, hlength⟩
  | cons c rest =>
    obtain ⟨rest', rfl, hrest⟩ := h.cons
    unfold caret
    split
    · next heq =>
      cases heq
      rw [List.length_cons] at hlength
      exact ⟨rfl, hrest, by dsimp only; omega⟩
    · next hne =>
      split
      · next heq => exact absurd (congrArg List.head? heq) fun he => hne rest (by cases he; rfl)
      · exact ⟨rfl, h, hlength⟩

/-- A name before `:]`. -/
theorem asciiName_cut {rest : List Char} (h : cs.drop (cs.takeWhile (· != ':')).length = ':' :: rest) :
    asciiName? cs = if rest.head? = some ']' then some (cs.takeWhile (· != ':'), rest.tail) else none := by
  unfold asciiName?
  dsimp only
  rw [h]
  split
  · next heq =>
    cases heq
    rfl
  · next hne =>
    rw [if_neg]
    intro hhead
    obtain ⟨after, rfl⟩ := List.head?_eq_some_iff.1 hhead
    exact hne after rfl

theorem extends_asciiName (h : Ended cs cs') (hlength : cs.length ≤ n) :
    Extends (Same n) Nowhere (asciiName? cs) (asciiName? cs') := by
  rcases h.cut (m := ':') (by decide) (by decide) with ⟨hcs, hcs'⟩ | ⟨hname, rest, rest', hrest, hcs, hcs'⟩
  · unfold asciiName?
    dsimp only
    rw [hcs, hcs']
    exact .neither
  · rw [asciiName_cut hcs, asciiName_cut hcs', hname]
    have hle := length_lt_of_drop hcs
    cases rest with
    | nil =>
      rcases hrest.nil_or with rfl | rfl
      · exact .neither
      · exact .neither
    | cons d after =>
      obtain ⟨after', rfl, hafter⟩ := hrest.cons
      rw [List.length_cons] at hle
      rw [List.head?_cons, List.head?_cons]
      split
      · exact .both ⟨rfl, hafter, by dsimp only [List.tail_cons]; omega⟩
      · exact .neither

theorem asciiClass_ne (hc : c ≠ ':') : asciiClass? f (c :: rest) = none := by
  unfold asciiClass?
  split
  · next heq => exact absurd (List.cons.inj heq).1 hc
  · rfl

theorem extends_asciiClass (h : Ended cs cs') (hlength : cs.length ≤ n) :
    Extends (Same n) Nowhere (asciiClass? f cs) (asciiClass? f cs') := by
  cases cs with
  | nil =>
    rcases h.nil_or with rfl | rfl
    · exact .neither
    · exact .neither
  | cons c rest =>
    obtain ⟨rest', rfl, hrest⟩ := h.cons
    by_cases hc : c = ':'
    · subst hc
      rw [List.length_cons] at hlength
      have hcaret := same_caret (n := n) hrest (by omega)
      refine Extends.bind (extends_asciiName hcaret.ended hcaret.length) ?_ nofun
      rintro ⟨name, r⟩ ⟨name', r'⟩ ⟨rfl, hr, hrle⟩
      refine .step fun c => .both ⟨?_, hr, hrle⟩
      exact congrArg (fun b => if b = true then Class.negate (f.fold c) else f.fold c) hcaret.value
    · rw [asciiClass_ne hc, asciiClass_ne hc]
      exact .neither

theorem classAtom_ne (hc : c ≠ '\\') : classAtom engine f (c :: rest) = some (.char c, rest) := by
  unfold classAtom
  split
  · next heq => cases heq
  · next heq => exact absurd (List.cons.inj heq).1 hc
  · next heq =>
    cases heq
    rfl

theorem extends_classAtom (h : Ended cs cs') (hlength : cs.length ≤ n + 1) :
    Extends (Same n) (PastEscape f) (classAtom engine f cs) (classAtom engine f cs') := by
  cases cs with
  | nil =>
    rcases h.nil_or with rfl | rfl
    · exact .over (.inl (List.suffix_refl _))
    · exact .neither
  | cons c rest =>
    obtain ⟨rest', rfl, hrest⟩ := h.cons
    rw [List.length_cons] at hlength
    by_cases hc : c = '\\'
    · subst hc
      exact extends_escape hrest (by omega)
    · rw [classAtom_ne hc, classAtom_ne hc]
      exact .both ⟨rfl, hrest, by dsimp only; omega⟩

/-- What is read into the ending leaves at most the ending. -/
def IntoEnding (p : α × List Char) : Prop := p.2 <:+ ending

theorem extends_rangeTo {first : Atom} (h : Ended cs cs') (hlength : cs.length ≤ n) :
    Extends (Same n) IntoEnding (rangeTo? engine f first cs) (rangeTo? engine f first cs') := by
  refine (extends_classAtom h (Nat.le_succ_of_le hlength)).bind ?_ ?_
  · rintro ⟨last, r⟩ ⟨last', r'⟩ ⟨rfl, hr, hrle⟩
    refine .step fun lo => .step fun hi => ?_
    split
    · exact .both ⟨rfl, hr, hrle⟩
    · exact .neither
  · rintro ⟨last, r⟩ hpast p hp
    obtain ⟨lo, -, hp⟩ := Option.bind_eq_some_iff.1 hp
    obtain ⟨hi, hmember, hp⟩ := Option.bind_eq_some_iff.1 hp
    rcases hpast with hr | ⟨q, rest, hplace, -⟩
    · split at hp
      · cases hp
        exact hr.trans dollar_suffix
      · cases hp
    · -- A place is no end of a range.
      cases hplace
      cases hmember

theorem rangeFrom_nil {first : Atom} (h : f.ahead cs = []) : rangeFrom? engine f first cs = none := by
  simp only [rangeFrom?, h]

theorem rangeFrom_ne {first : Atom} (h : f.ahead cs = c :: rest) (hc : c ≠ '-') :
    rangeFrom? engine f first cs = (do pure (← atomClass? f first, c :: rest)) := by
  unfold rangeFrom?
  rw [h]
  split
  · next heq => cases heq
  · next heq => exact absurd (List.cons.inj heq).1 hc
  · next heq =>
    cases heq
    rfl

theorem rangeFrom_hyphen_nil {first : Atom} (h : f.ahead cs = '-' :: rest) (hrest : f.ahead rest = []) :
    rangeFrom? engine f first cs = none := by
  simp only [rangeFrom?, h, hrest]

theorem rangeFrom_hyphen {first : Atom} {more : List Char} (h : f.ahead cs = '-' :: rest)
    (hrest : f.ahead rest = c :: more) : rangeFrom? engine f first cs =
      if c = ']' ∨ c = '-' then (do pure (← atomClass? f first, '-' :: rest)) else rangeTo? engine f first (c :: more) := by
  simp only [rangeFrom?, h, hrest]

/-- Into the ending, an item stands for itself alone. -/
theorem intoEnding_rangeFrom {first : Atom} (h : f.ahead rest <:+ ending) {p : Class × List Char}
    (hp : rangeFrom? engine f first rest = some p) : IntoEnding p := by
  rcases hahead : f.ahead rest with _ | ⟨c, more⟩
  · rw [rangeFrom_nil hahead] at hp
    cases hp
  · rw [hahead] at h
    have hc : c ≠ '-' := by
      rintro rfl
      exact absurd (h.mem List.mem_cons_self) (by decide)
    rw [rangeFrom_ne hahead hc] at hp
    obtain ⟨k, -, hp⟩ := Option.bind_eq_some_iff.1 hp
    cases hp
    exact h

theorem extends_rangeFrom {first : Atom} (h : Ended cs cs') (hlength : cs.length ≤ n) :
    Extends (Same n) IntoEnding (rangeFrom? engine f first cs) (rangeFrom? engine f first cs') := by
  rcases h.next f with ⟨hcs, hcs'⟩ | ⟨c, rest, hcs, hcs', hlt⟩
  · rw [rangeFrom_nil hcs]
    rcases hcs' with hcs' | hcs'
    · exact fun p hp => intoEnding_rangeFrom (hcs' ▸ List.suffix_refl _) hp
    · rw [rangeFrom_nil hcs']
      exact .neither
  by_cases hc : c = '-'
  · subst hc
    rcases (ended_append rest).next f with ⟨hmore, hmore'⟩ | ⟨d, more, hmore, hmore', hlt'⟩
    · rw [rangeFrom_hyphen_nil hcs hmore]
      rcases hmore' with hmore' | hmore'
      · rw [rangeFrom_hyphen hcs' hmore', if_neg (by decide)]
        exact (extends_rangeTo (n := n) (ended_append []) (Nat.zero_le n)).mono (fun _ _ => id) fun _ => id
      · rw [rangeFrom_hyphen_nil hcs' hmore']
        exact .neither
    · rw [rangeFrom_hyphen hcs hmore, rangeFrom_hyphen hcs' hmore']
      split
      · exact .step fun k => .both ⟨rfl, ended_cons '-' rest, by dsimp only; rw [List.length_cons]; omega⟩
      · exact extends_rangeTo (ended_cons d more) (by rw [List.length_cons]; omega)
  · rw [rangeFrom_ne hcs hc, rangeFrom_ne hcs' hc]
    exact .step fun k => .both ⟨rfl, ended_cons c rest, by dsimp only; rw [List.length_cons]; omega⟩

theorem extends_classRange (h : Ended cs cs') (hlength : cs.length ≤ n + 1) :
    Extends (Same n) IntoEnding (classRange engine f cs) (classRange engine f cs') := by
  refine (extends_classAtom h hlength).bind ?_ ?_
  · rintro ⟨first, r⟩ ⟨first', r'⟩ ⟨rfl, hr, hrle⟩
    exact extends_rangeFrom hr hrle
  · rintro ⟨first, r⟩ hpast p hp
    rcases hpast with hr | ⟨q, rest, hplace, -⟩
    · exact intoEnding_rangeFrom ((ahead_suffix f r).trans (hr.trans dollar_suffix)) hp
    · -- A place is no member of a class.
      cases hplace
      have hnone : rangeFrom? engine f (.place q) ('{' :: rest) = none := by
        rw [rangeFrom_ne (ahead_cons (by decide) (by decide)) (by decide)]
        rfl
      exact absurd (hnone.symm.trans hp) nofun

theorem leadingHyphens_ne {s : Items} {fuel : Nat} (hc : c ≠ '-') :
    leadingHyphens f fuel s (c :: rest) = (s, c :: rest) := by
  cases fuel with
  | zero => rfl
  | succ fuel =>
    rw [leadingHyphens]
    exact fun _ heq => hc (List.cons.inj heq).1

theorem same_leadingHyphens {s : Items} (h : Ended cs cs') (hlength : cs.length ≤ n) {fuel fuel' : Nat}
    (hfuel : cs.length < fuel) (hfuel' : cs'.length < fuel') :
    Same n (leadingHyphens f fuel s cs) (leadingHyphens f fuel' s cs') := by
  refine h.rounds f (P := fun k k' cs cs' => ∀ s, Same n (leadingHyphens f k s cs) (leadingHyphens f k' s cs')) ?_ ?_
    hlength hfuel hfuel' s
  · intro k k' cs' h s
    rcases h.nil_or with rfl | rfl
    · exact ⟨rfl, h, Nat.zero_le n⟩
    · exact ⟨rfl, h, Nat.zero_le n⟩
  · intro k k' c rest hlt ih s
    by_cases hc : c = '-'
    · subst hc
      exact ih _
    · rw [leadingHyphens_ne hc, leadingHyphens_ne hc]
      exact ⟨rfl, ended_cons c rest, hlt⟩

theorem same_complement (h : Ended cs cs') (hlength : cs.length ≤ n) : Same n (complement f cs) (complement f cs') := by
  have hle := length_ahead_le f cs
  have hcaret := same_caret (n := n) (h.ahead (f := f)) (by omega)
  unfold complement
  generalize caret (f.ahead cs) = p at hcaret
  generalize caret (f.ahead cs') = p' at hcaret
  obtain ⟨negated, rest⟩ := p
  obtain ⟨negated', rest'⟩ := p'
  obtain ⟨rfl, hrest, hlength⟩ := hcaret
  cases negated' with
  | true => exact ⟨rfl, hrest.ahead, Nat.le_trans (length_ahead_le f rest) hlength⟩
  | false => exact ⟨rfl, hrest, hlength⟩

theorem extends_leadingBracket {s : Items} (h : Ended cs cs') (hlength : cs.length ≤ n) :
    Extends (Same n) IntoEnding (leadingBracket? f s cs) (leadingBracket? f s cs') := by
  cases cs with
  | nil =>
    rcases h.nil_or with rfl | rfl
    · exact .over (List.suffix_refl _)
    · exact .neither
  | cons c rest =>
    obtain ⟨rest', rfl, hrest⟩ := h.cons
    unfold leadingBracket?
    dsimp only
    split
    · rw [List.length_cons] at hlength
      rcases hrest.next f with ⟨hmore, hmore'⟩ | ⟨d, more, hmore, hmore', hlt⟩
      · rw [hmore]
        rcases hmore' with hmore' | hmore'
        · rw [hmore']
          exact .over (List.suffix_refl _)
        · rw [hmore']
          exact .neither
      · rw [hmore, hmore']
        exact .both ⟨rfl, ended_cons d more, by dsimp only; rw [List.length_cons]; omega⟩
    · exact .both ⟨rfl, h, hlength⟩

/-- The same with two values before the text. -/
structure Same₂ (n : Nat) (p p' : α × β × List Char) : Prop where
  value : p'.1 = p.1
  same : Same n p.2 p'.2

theorem extends_openClass (h : Ended cs cs') (hlength : cs.length ≤ n) :
    Extends (Same₂ n) (fun p => IntoEnding p.2) (openClass f cs) (openClass f cs') := by
  have hcomplement := same_complement (f := f) h hlength
  unfold openClass
  generalize complement f cs = p at hcomplement
  generalize complement f cs' = p' at hcomplement
  obtain ⟨negated, rest⟩ := p
  obtain ⟨negated', rest'⟩ := p'
  obtain ⟨rfl, hrest, hlength⟩ := hcomplement
  have hhyphens := same_leadingHyphens (f := f) (s := {}) hrest hlength (Nat.lt_succ_self _) (Nat.lt_succ_self _)
  dsimp only at hhyphens ⊢
  generalize leadingHyphens f (rest.length + 1) {} rest = p at hhyphens
  generalize leadingHyphens f (rest'.length + 1) {} rest' = p' at hhyphens
  obtain ⟨s, more⟩ := p
  obtain ⟨s', more'⟩ := p'
  obtain ⟨rfl, hmore, hlength⟩ := hhyphens
  refine (extends_leadingBracket hmore hlength).bind ?_ ?_
  · rintro ⟨s, r⟩ ⟨s', r'⟩ ⟨rfl, hr, hrle⟩
    exact .both ⟨rfl, rfl, hr, hrle⟩
  · rintro ⟨s, r⟩ hr
    exact .over hr

theorem extends_setOp (h : Ended cs cs') (hlength : cs.length ≤ n + 1) :
    Extends (Same n) Nowhere (setOp? cs) (setOp? cs') := by
  match cs with
  | [] =>
    rcases h.nil_or with rfl | rfl
    · exact .neither
    · exact .neither
  | [c] =>
    obtain ⟨rest', rfl, hrest⟩ := h.cons
    rcases hrest.nil_or with rfl | rfl
    · by_cases hc : c = ')'
      · subst hc
        exact .neither
      · unfold setOp? ending
        dsimp only
        rw [if_neg hc]
        exact .neither
    · exact .neither
  | c :: d :: rest =>
    obtain ⟨more', rfl, hmore⟩ := h.cons
    obtain ⟨rest', rfl, hrest⟩ := hmore.cons
    rw [List.length_cons, List.length_cons] at hlength
    unfold setOp?
    dsimp only
    split
    · cases SetOp.marked? c with
      | some op => exact .both ⟨rfl, hrest, by dsimp only; omega⟩
      | none => exact .neither
    · exact .neither

section

variable {negated : Bool} {fuel : Nat} {pending : Option Pending} {s : Items}

theorem classBody_nil (h : f.ahead cs = []) : classBody engine f negated fuel pending s cs = none := by
  cases fuel with
  | zero => rfl
  | succ fuel => simp only [classBody, h]

theorem classBody_named {k : Class} {after : List Char} (h : f.ahead cs = '[' :: rest)
    (hclass : asciiClass? f rest = some (k, after)) :
    classBody engine f negated (fuel + 1) pending s cs = classBody engine f negated fuel pending (s.add k 0) after := by
  simp only [classBody, h, hclass]

theorem classBody_nested (h : f.ahead cs = '[' :: rest) (hclass : asciiClass? f rest = none) :
    classBody engine f negated (fuel + 1) pending s cs = (do
      let (innerNegated, inner, after) ← openClass f rest
      let (k, depth, after) ← classBody engine f innerNegated fuel none inner after
      classBody engine f negated fuel pending (s.add k depth) after) := by
  simp only [classBody, h, hclass]

theorem classBody_close (h : f.ahead cs = ']' :: rest) : classBody engine f negated (fuel + 1) pending s cs = (do
    pure (← f.finish? (combine f pending s).1 negated, (combine f pending s).2 + 1, rest)) := by
  simp only [classBody, h]

theorem classBody_op {op : SetOp} {after : List Char} (h : f.ahead cs = c :: rest) (hopen : c ≠ '[') (hclose : c ≠ ']')
    (hop : setOp? (c :: rest) = some (op, after)) : classBody engine f negated (fuel + 1) pending s cs =
      classBody engine f negated fuel (some ⟨op, (combine f pending s).1, (combine f pending s).2⟩) {} after := by
  rw [classBody, h]
  split
  · next heq => cases heq
  · next heq => exact absurd (List.cons.inj heq).1 hopen
  · next heq => exact absurd (List.cons.inj heq).1 hclose
  · next heq =>
    cases heq
    rw [hop]

theorem classBody_range (h : f.ahead cs = c :: rest) (hopen : c ≠ '[') (hclose : c ≠ ']')
    (hop : setOp? (c :: rest) = none) : classBody engine f negated (fuel + 1) pending s cs = (do
      let (k, after) ← classRange engine f (c :: rest)
      classBody engine f negated fuel pending (s.add k 0) after) := by
  rw [classBody, h]
  split
  · next heq => cases heq
  · next heq => exact absurd (List.cons.inj heq).1 hopen
  · next heq => exact absurd (List.cons.inj heq).1 hclose
  · next heq =>
    cases heq
    rw [hop]

/-- The ending closes no class. -/
theorem classBody_ending (h : f.ahead cs <:+ ending) : classBody engine f negated fuel pending s cs = none := by
  have hdollar {fuel : Nat} {s : Items} {cs : List Char} (h : f.ahead cs = ['$']) :
      classBody engine f negated fuel pending s cs = none := by
    cases fuel with
    | zero => rfl
    | succ fuel =>
      have hrange : classRange engine f ['$'] = none := rangeFrom_nil ahead_nil
      rw [classBody_range h (by decide) (by decide) rfl, hrange]
      rfl
  rcases suffix_ending h with h | h | h
  · cases fuel with
    | zero => rfl
    | succ fuel =>
      have hrange : classRange engine f [')', '$'] = (do pure (← atomClass? f (.char ')'), ['$'])) :=
        rangeFrom_ne ahead_dollar (by decide)
      rw [classBody_range h (by decide) (by decide) rfl, hrange]
      cases atomClass? f (.char ')') with
      | none => rfl
      | some k => exact hdollar ahead_dollar
  · exact hdollar h
  · exact classBody_nil h

/-- In up to `fuel` rounds a class is read alike with the ending behind the text. -/
def BodyExtends (engine : Engine) (f : Flags) (fuel : Nat) : Prop :=
  ∀ {negated : Bool} {pending : Option Pending} {s : Items} {cs cs' : List Char} {n fuel' : Nat}, Ended cs cs' →
    cs.length ≤ n → cs.length < fuel → cs.length < fuel' →
      Extends (Same₂ n) Nowhere (classBody engine f negated fuel pending s cs)
        (classBody engine f negated fuel' pending s cs')

/-- A class with a name, or a nested one, and the rest of the class that it is in. -/
theorem extends_classBody_bracket (ih : BodyExtends engine f fuel) {fuel' : Nat} (hcs : f.ahead cs = '[' :: rest)
    (hcs' : f.ahead cs' = '[' :: (rest ++ ending)) (hlength : rest.length ≤ n) (hfuel : rest.length < fuel)
    (hfuel' : rest.length < fuel') : Extends (Same₂ n) Nowhere (classBody engine f negated (fuel + 1) pending s cs)
      (classBody engine f negated (fuel' + 1) pending s cs') := by
  rcases (extends_asciiClass (f := f) (ended_append rest) (Nat.le_refl _)).both_or_neither with
    ⟨⟨k, after⟩, ⟨k', after'⟩, hclass, hclass', rfl, hafter, hle'⟩ | ⟨hclass, hclass'⟩
  · rw [classBody_named hcs hclass, classBody_named hcs' hclass']
    dsimp only at hafter hle' ⊢
    exact ih hafter (by omega) (by omega) (by omega)
  · rw [classBody_nested hcs hclass, classBody_nested hcs' hclass']
    refine (extends_openClass (ended_append rest) (Nat.le_refl _)).bind ?_ ?_
    · rintro ⟨innerNegated, inner, after⟩ ⟨innerNegated', inner', after'⟩ ⟨rfl, rfl, hafter, hle'⟩
      dsimp only at hafter hle' ⊢
      refine (ih hafter (Nat.le_refl _) (by omega) (by omega)).bind ?_ nofun
      rintro ⟨k, depth, more⟩ ⟨k', depth', more'⟩ ⟨rfl, rfl, hmore, hle''⟩
      dsimp only at hmore hle'' ⊢
      exact ih hmore (by omega) (by omega) (by omega)
    · rintro ⟨innerNegated, inner, after⟩ hafter
      dsimp only [IntoEnding] at hafter ⊢
      rw [classBody_ending ((ahead_suffix f after).trans hafter)]
      exact .neither

/-- A set operation or a range, and the rest of the class. -/
theorem extends_classBody_item (ih : BodyExtends engine f fuel) {fuel' : Nat} (hcs : f.ahead cs = c :: rest)
    (hcs' : f.ahead cs' = c :: (rest ++ ending)) (hopen : c ≠ '[') (hclose : c ≠ ']') (hlength : rest.length ≤ n)
    (hfuel : rest.length < fuel) (hfuel' : rest.length < fuel') :
    Extends (Same₂ n) Nowhere (classBody engine f negated (fuel + 1) pending s cs)
      (classBody engine f negated (fuel' + 1) pending s cs') := by
  rcases (extends_setOp (ended_cons c rest) (Nat.le_refl (rest.length + 1))).both_or_neither with
    ⟨⟨op, after⟩, ⟨op', after'⟩, hmark, hmark', rfl, hafter, hle'⟩ | ⟨hmark, hmark'⟩
  · rw [classBody_op hcs hopen hclose hmark, classBody_op hcs' hopen hclose hmark']
    dsimp only at hafter hle' ⊢
    exact ih hafter (by omega) (by omega) (by omega)
  · rw [classBody_range hcs hopen hclose hmark, classBody_range hcs' hopen hclose hmark']
    refine (extends_classRange (ended_cons c rest) (Nat.le_refl (rest.length + 1))).bind ?_ ?_
    · rintro ⟨k, after⟩ ⟨k', after'⟩ ⟨rfl, hafter, hle'⟩
      dsimp only at hafter hle' ⊢
      exact ih hafter (by omega) (by omega) (by omega)
    · rintro ⟨k, after⟩ hafter
      dsimp only [IntoEnding] at hafter ⊢
      rw [classBody_ending ((ahead_suffix f after).trans hafter)]
      exact .neither

theorem extends_classBody (f : Flags) (fuel : Nat) : BodyExtends engine f fuel := by
  induction fuel with
  | zero =>
    intro _ _ _ _ _ _ _ _ _ hfuel
    omega
  | succ fuel ih =>
    intro negated pending s cs cs' n fuel' h hlength hfuel hfuel'
    cases fuel' with
    | zero => omega
    | succ fuel' =>
      rcases h.next f with ⟨hcs, hcs'⟩ | ⟨c, rest, hcs, hcs', hlt⟩
      · rw [classBody_nil hcs, classBody_ending]
        · exact .neither
        · rcases hcs' with hcs' | hcs'
          · exact hcs' ▸ List.suffix_refl ending
          · exact hcs' ▸ List.nil_suffix
      by_cases hopen : c = '['
      · subst hopen
        exact extends_classBody_bracket ih hcs hcs' (by omega) (by omega) (by omega)
      by_cases hclose : c = ']'
      · subst hclose
        rw [classBody_close hcs, classBody_close hcs']
        exact .step fun k => .both ⟨rfl, rfl, ended_append rest, by dsimp only; omega⟩
      exact extends_classBody_item ih hcs hcs' hopen hclose (by omega) (by omega) (by omega)

end

theorem extends_bracketed (h : Ended cs cs') (hlength : cs.length ≤ n) :
    Extends (Same₂ n) Nowhere (bracketed engine f cs) (bracketed engine f cs') := by
  refine (extends_openClass h hlength).bind ?_ ?_
  · rintro ⟨negated, s, r⟩ ⟨negated', s', r'⟩ ⟨rfl, rfl, hr, hrle⟩
    dsimp only at hr hrle ⊢
    refine extends_classBody f _ hr hrle (by omega) ?_
    rcases hr with rfl | ⟨rfl, rfl⟩
    · rw [List.length_append]
      omega
    · exact Nat.zero_lt_two
  · rintro ⟨negated, s, r⟩ hr
    have hnone : classBody engine f negated (2 * r.length + 2) none s r = none :=
      classBody_ending ((ahead_suffix f r).trans hr)
    exact fun p hp => absurd (hnone.symm.trans hp) nofun

end LineMatch.Pattern
