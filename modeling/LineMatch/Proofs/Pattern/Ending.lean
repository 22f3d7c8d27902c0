/-
  LineMatch.Proofs.Pattern.Ending — reading a pattern with an ending behind it.

  A pattern is pasted between other text before it is read. So each reader is compared on
  two texts: one, and the same with `)$` behind it. Where it reads the first, it reads the
  second alike and leaves the ending, unless a comment has taken it (`Ended`). Where it fails
  on the first, it may go on into the ending, and then the ending does not close anything
  that is open.
-/

import LineMatch.Pattern.Parser

namespace LineMatch.Pattern

open LineMatch.Text

/-- What stands behind a pattern. -/
def ending : List Char := [')', '$']

/-- A text, and the same with the ending behind it; or nothing, and nothing of an ending that
    a comment has taken. -/
def Ended (cs cs' : List Char) : Prop := cs' = cs ++ ending ∨ (cs = [] ∧ cs' = [])

variable {α β γ δ : Type} {engine : Engine} {c : Char} {cs cs' rest rest' : List Char} {f : Flags} {m n k : Nat}

theorem ended_append (cs : List Char) : Ended cs (cs ++ ending) := .inl rfl

theorem ended_cons (c : Char) (cs : List Char) : Ended (c :: cs) (c :: (cs ++ ending)) := .inl rfl

theorem Ended.nil_or (h : Ended [] cs') : cs' = ending ∨ cs' = [] := by
  rcases h with h | ⟨-, h⟩
  · exact .inl h
  · exact .inr h

theorem Ended.cons (h : Ended (c :: rest) cs') : ∃ rest', cs' = c :: rest' ∧ Ended rest rest' := by
  rcases h with rfl | ⟨h, -⟩
  · exact ⟨rest ++ ending, rfl, .inl rfl⟩
  · cases h

theorem Ended.head_eq_iff (hparenthesis : c ≠ ')') (h : Ended cs cs') : cs'.head? = some c ↔ cs.head? = some c := by
  cases cs with
  | nil =>
    rcases h.nil_or with rfl | rfl
    · simp [ending, hparenthesis.symm]
    · exact Iff.rfl
  | cons d rest =>
    obtain ⟨rest', rfl, -⟩ := h.cons
    exact Iff.rfl

theorem dollar_suffix : ['$'] <:+ ending := List.suffix_cons ')' ['$']

theorem suffix_ending (h : cs <:+ ending) : cs = ending ∨ cs = ['$'] ∨ cs = [] := by
  rcases List.suffix_cons_iff.1 h with rfl | h
  · exact .inl rfl
  rcases List.suffix_cons_iff.1 h with rfl | h
  · exact .inr (.inl rfl)
  · exact .inr (.inr (List.suffix_nil.1 h))

theorem length_lt_of_drop (h : cs.drop k = c :: rest) : rest.length < cs.length := by
  have hlength := congrArg List.length h
  rw [List.length_drop, List.length_cons] at hlength
  omega

/-- The first of the marks `m` is the same, or there is none. -/
theorem Ended.cut {m : Char} (hparenthesis : m ≠ ')') (hdollar : m ≠ '$') (h : Ended cs cs') :
    (cs.drop (cs.takeWhile (· != m)).length = [] ∧ cs'.drop (cs'.takeWhile (· != m)).length = []) ∨
      (cs'.takeWhile (· != m) = cs.takeWhile (· != m) ∧ ∃ rest rest', Ended rest rest' ∧
        cs.drop (cs.takeWhile (· != m)).length = m :: rest ∧ cs'.drop (cs'.takeWhile (· != m)).length = m :: rest') := by
  induction cs generalizing cs' with
  | nil =>
    rcases h.nil_or with rfl | rfl
    · simp [ending, hparenthesis.symm, hdollar.symm]
    · simp
  | cons c rest ih =>
    obtain ⟨rest', rfl, hrest⟩ := h.cons
    by_cases hc : c = m
    · subst hc
      simp [hrest]
    · simpa [hc] using ih hrest

/-! ## Blanks and comments -/

theorem skipVerbose_suffix (inComment : Bool) (cs : List Char) : skipVerbose inComment cs <:+ cs := by
  induction cs generalizing inComment with
  | nil => exact List.suffix_refl []
  | cons c cs ih =>
    rw [skipVerbose]
    split
    · exact (ih _).trans (List.suffix_cons c cs)
    split
    · exact (ih _).trans (List.suffix_cons c cs)
    split
    · exact (ih _).trans (List.suffix_cons c cs)
    · exact List.suffix_refl _

theorem ahead_suffix (f : Flags) (cs : List Char) : f.ahead cs <:+ cs := by
  unfold Flags.ahead
  split
  · exact skipVerbose_suffix false cs
  · exact List.suffix_refl cs

theorem length_ahead_le (f : Flags) (cs : List Char) : (f.ahead cs).length ≤ cs.length :=
  (ahead_suffix f cs).length_le

theorem ended_skipVerbose (inComment : Bool) (cs : List Char) :
    Ended (skipVerbose inComment cs) (skipVerbose inComment (cs ++ ending)) := by
  induction cs generalizing inComment with
  | nil =>
    cases inComment with
    | true => exact .inr ⟨rfl, rfl⟩
    | false => exact .inl rfl
  | cons c cs ih =>
    rw [List.cons_append, skipVerbose, skipVerbose]
    split
    · exact ih _
    split
    · exact ih _
    split
    · exact ih _
    · exact .inl rfl

theorem Ended.ahead (h : Ended cs cs') : Ended (f.ahead cs) (f.ahead cs') := by
  unfold Flags.ahead
  split
  · rcases h with rfl | ⟨rfl, rfl⟩
    · exact ended_skipVerbose false cs
    · exact .inr ⟨rfl, rfl⟩
  · exact h

/-- The next character that counts is the same, or the text alone has none. -/
theorem Ended.next (f : Flags) (h : Ended cs cs') :
    (f.ahead cs = [] ∧ (f.ahead cs' = ending ∨ f.ahead cs' = [])) ∨
      ∃ c rest, f.ahead cs = c :: rest ∧ f.ahead cs' = c :: (rest ++ ending) ∧ rest.length < cs.length := by
  have hahead := h.ahead (f := f)
  have hle := length_ahead_le f cs
  rcases hcs : f.ahead cs with _ | ⟨c, rest⟩
  · rw [hcs] at hahead
    exact .inl ⟨rfl, hahead.nil_or⟩
  · rw [hcs] at hahead hle
    rcases hahead with hcs' | ⟨hnil, -⟩
    · exact .inr ⟨c, rest, rfl, hcs', hle⟩
    · cases hnil

theorem ahead_nil : f.ahead [] = [] := List.eq_nil_of_suffix_nil (ahead_suffix f [])

theorem ahead_cons (hblank : isBlank c = false) (hcomment : c ≠ '#') : f.ahead (c :: rest) = c :: rest := by
  unfold Flags.ahead
  split
  · rw [skipVerbose, if_neg Bool.false_ne_true, hblank, if_neg Bool.false_ne_true, if_neg hcomment]
  · rfl

theorem ahead_dollar : f.ahead ['$'] = ['$'] := ahead_cons (by decide) (by decide)

/-- To show something of a text with the ending behind it and without, in rounds that take a
    character and what is skipped behind it, it is enough to show it at the end of the text
    and to go on from one round to the next, where there are rounds enough for either. -/
theorem Ended.rounds {P : Nat → Nat → List Char → List Char → Prop} (f : Flags)
    (nil : ∀ k k' cs', Ended [] cs' → P (k + 1) (k' + 1) [] cs')
    (cons : ∀ k k' c rest, rest.length < n → P k k' (f.ahead rest) (f.ahead (rest ++ ending)) →
      P (k + 1) (k' + 1) (c :: rest) (c :: (rest ++ ending)))
    (h : Ended cs cs') (hlength : cs.length ≤ n) {fuel fuel' : Nat} (hfuel : cs.length < fuel)
    (hfuel' : cs'.length < fuel') : P fuel fuel' cs cs' := by
  induction fuel generalizing fuel' cs cs' with
  | zero => omega
  | succ fuel ih =>
    cases fuel' with
    | zero => omega
    | succ fuel' =>
      cases cs with
      | nil => exact nil fuel fuel' cs' h
      | cons c rest =>
        rcases h with rfl | ⟨hnil, -⟩
        · have hle := length_ahead_le f rest
          have hle' := length_ahead_le f (rest ++ ending)
          rw [List.cons_append, List.length_cons] at hfuel'
          rw [List.length_cons] at hlength hfuel
          exact cons fuel fuel' c rest hlength (ih (ended_append rest).ahead (by omega) (by omega) (by omega))
        · cases hnil

/-! ## Results -/

/-- Both give results that `E` relates, or only the second gives one, of which `N` holds. -/
def Extends (E : α → β → Prop) (N : β → Prop) (x : Option α) (y : Option β) : Prop :=
  match x with
  | some a => ∃ b, y = some b ∧ E a b
  | none => ∀ b, y = some b → N b

/-- Nothing is read into the ending. -/
def Nowhere (_ : α) : Prop := False

section

variable {E : α → β → Prop} {E' : γ → δ → Prop} {N : β → Prop} {N' : δ → Prop} {x : Option α} {y : Option β}
  {r : α → Option γ} {s : β → Option δ} {a : α} {b : β}

theorem Extends.both (h : E a b) : Extends E N (some a) (some b) := ⟨b, rfl, h⟩

theorem Extends.neither : Extends E N none none := nofun

theorem Extends.over (h : N b) : Extends E N none (some b) := by
  rintro b' ⟨⟩
  exact h

theorem Extends.eq_none (h : Extends E Nowhere (none : Option α) y) : y = none :=
  Option.eq_none_iff_forall_ne_some.2 h

theorem Extends.both_or_neither (h : Extends E Nowhere x y) :
    (∃ a b, x = some a ∧ y = some b ∧ E a b) ∨ (x = none ∧ y = none) := by
  cases x with
  | some a =>
    obtain ⟨b, hy, hab⟩ := h
    exact .inl ⟨a, b, rfl, hy, hab⟩
  | none => exact .inr ⟨rfl, h.eq_none⟩

theorem Extends.bind (h : Extends E N x y) (hboth : ∀ a b, E a b → Extends E' N' (r a) (s b))
    (hover : ∀ b, N b → Extends E' N' none (s b)) : Extends E' N' (x >>= r) (y >>= s) := by
  cases x with
  | some a =>
    obtain ⟨b, rfl, hab⟩ := h
    exact hboth a b hab
  | none =>
    cases y with
    | some b => exact hover b (h b rfl)
    | none => exact .neither

/-- The same first step. -/
theorem Extends.step {r : α → Option γ} {s : α → Option δ} (h : ∀ a, Extends E' N' (r a) (s a)) :
    Extends E' N' (x >>= r) (x >>= s) := by
  cases x with
  | some a => exact h a
  | none => exact .neither

theorem Extends.mono {E₂ : α → β → Prop} {N₂ : β → Prop} (h : Extends E N x y) (hE : ∀ a b, E a b → E₂ a b)
    (hN : ∀ b, N b → N₂ b) : Extends E₂ N₂ x y := by
  cases x with
  | some a =>
    obtain ⟨b, hy, hab⟩ := h
    exact ⟨b, hy, hE a b hab⟩
  | none => exact fun b hb => hN b (h b hb)

end

/-- The same was read, and the ending is left. -/
structure Same (n : Nat) (p p' : α × List Char) : Prop where
  value : p'.1 = p.1
  ended : Ended p.2 p'.2
  length : p.2.length ≤ n

/-! ## Numbers of characters -/

theorem extends_hexFixed (h : Ended cs cs') (hlength : cs.length ≤ n) :
    Extends (Same n) Nowhere (hexFixed f k m cs) (hexFixed f k m cs') := by
  induction k generalizing m cs cs' with
  | zero => exact .both ⟨rfl, h, hlength⟩
  | succ k ih =>
    cases cs with
    | nil =>
      rcases h.nil_or with rfl | rfl
      · exact .neither
      · exact .neither
    | cons c rest =>
      obtain ⟨rest', rfl, hrest⟩ := h.cons
      refine .step fun d => ih hrest.ahead ?_
      have hle := length_ahead_le f rest
      rw [List.length_cons] at hlength
      omega

/-- Up to a brace, with counts of rounds that are large enough for either text. -/
theorem extends_hexBraced {isEmpty : Bool} (h : Ended cs cs') (hlength : cs.length ≤ n) {fuel fuel' : Nat}
    (hfuel : cs.length < fuel) (hfuel' : cs'.length < fuel') :
    Extends (Same n) Nowhere (hexBraced f fuel m isEmpty cs) (hexBraced f fuel' m isEmpty cs') := by
  refine h.rounds f (P := fun k k' cs cs' => ∀ m isEmpty,
    Extends (Same n) Nowhere (hexBraced f k m isEmpty cs) (hexBraced f k' m isEmpty cs')) ?_ ?_ hlength hfuel hfuel' _ _
  · intro k k' cs' h m isEmpty
    rcases h.nil_or with rfl | rfl
    · exact .neither
    · exact .neither
  · intro k k' c rest hlt ih m isEmpty
    by_cases hc : c = '}'
    · subst hc
      have hle := length_ahead_le f rest
      cases isEmpty with
      | true => exact .neither
      | false => exact .both ⟨rfl, (ended_append rest).ahead, by dsimp only; omega⟩
    · rw [hexBraced, hexBraced]
      · exact .step fun d => ih _ _
      · exact hc
      · exact hc

theorem hexEscape_digits (h : f.ahead cs = c :: rest) (hc : c ≠ '{') : hexEscape f k cs = (do
    let (m, rest) ← hexFixed f k 0 (c :: rest)
    let d ← scalar? m
    pure (if k = 2 then .byte d else .char d, rest)) := by
  unfold hexEscape
  rw [h]
  split
  · next heq => cases heq
  · next heq => exact absurd (List.cons.inj heq).1 hc
  · rfl

theorem extends_hexEscape (h : Ended cs cs') (hlength : cs.length ≤ n) :
    Extends (Same n) Nowhere (hexEscape f (k + 1) cs) (hexEscape f (k + 1) cs') := by
  rcases h.next f with ⟨hcs, hcs'⟩ | ⟨c, rest, hcs, hcs', hlt⟩
  · unfold hexEscape
    rw [hcs]
    rcases hcs' with hcs' | hcs'
    · rw [hcs']
      exact .neither
    · rw [hcs']
      exact .neither
  · by_cases hc : c = '{'
    · subst hc
      unfold hexEscape
      rw [hcs, hcs']
      have hle := length_ahead_le f rest
      have hle' := length_ahead_le f (rest ++ ending)
      refine (extends_hexBraced (n := n) (ended_append rest).ahead (by omega) (by omega) (by omega)).bind ?_ nofun
      rintro ⟨a, r⟩ ⟨b, r'⟩ ⟨rfl, hr, hrle⟩
      exact .step fun c => .both ⟨rfl, hr, hrle⟩
    · rw [hexEscape_digits hcs hc, hexEscape_digits hcs' hc]
      refine (extends_hexFixed (n := n) (ended_cons c rest) (by rw [List.length_cons]; omega)).bind ?_ nofun
      rintro ⟨a, r⟩ ⟨b, r'⟩ ⟨rfl, hr, hrle⟩
      exact .step fun c => .both ⟨rfl, hr, hrle⟩

/-! ## Properties -/

theorem braced_eq_none {fuel : Nat} (h : '}' ∉ cs) : braced f fuel cs = none := by
  induction fuel generalizing cs with
  | zero => rfl
  | succ fuel ih =>
    cases cs with
    | nil => rfl
    | cons c rest =>
      rw [List.mem_cons, not_or] at h
      rw [braced, ih fun hmem => h.2 ((ahead_suffix f rest).mem hmem)]
      · rfl
      · exact fun hc => h.1 hc.symm

theorem extends_braced (h : Ended cs cs') (hlength : cs.length ≤ n) {fuel fuel' : Nat} (hfuel : cs.length < fuel)
    (hfuel' : cs'.length < fuel') : Extends (Same n) Nowhere (braced f fuel cs) (braced f fuel' cs') := by
  refine h.rounds f (P := fun k k' cs cs' => Extends (Same n) Nowhere (braced f k cs) (braced f k' cs')) ?_ ?_
    hlength hfuel hfuel'
  · intro k k' cs' h
    rcases h.nil_or with rfl | rfl
    · rw [braced_eq_none (by decide : '}' ∉ ending)]
      exact .neither
    · exact .neither
  · intro k k' c rest hlt ih
    by_cases hc : c = '}'
    · subst hc
      exact .both ⟨rfl, ended_append rest, Nat.le_of_lt hlt⟩
    · rw [braced, braced]
      · refine ih.bind ?_ nofun
        rintro ⟨a, r⟩ ⟨b, r'⟩ ⟨rfl, hr, hrle⟩
        exact .both ⟨rfl, hr, hrle⟩
      · exact hc
      · exact hc

/-- The parenthesis of the ending is taken. -/
def PastParenthesis (p : α × List Char) : Prop := p.2 <:+ ['$']

theorem propertyName_one (h : f.ahead cs = c :: rest) (hc : c ≠ '{') :
    propertyName? f cs = if c = '\\' then none else some ([c], f.ahead rest) := by
  unfold propertyName?
  rw [h]
  split
  · next heq => cases heq
  · next heq => exact absurd (List.cons.inj heq).1 hc
  · next heq =>
    cases heq
    rfl

theorem extends_propertyName (h : Ended cs cs') (hlength : cs.length ≤ n) :
    Extends (Same n) PastParenthesis (propertyName? f cs) (propertyName? f cs') := by
  rcases h.next f with ⟨hcs, hcs'⟩ | ⟨c, rest, hcs, hcs', hlt⟩
  · unfold propertyName?
    rw [hcs]
    rcases hcs' with hcs' | hcs'
    · rw [hcs']
      exact .over (ahead_suffix f ['$'])
    · rw [hcs']
      exact .neither
  · have hle := length_ahead_le f rest
    by_cases hc : c = '{'
    · subst hc
      unfold propertyName?
      rw [hcs, hcs']
      have hle' := length_ahead_le f (rest ++ ending)
      exact (extends_braced (ended_append rest).ahead (by omega) (by omega) (by omega)).mono (fun _ _ => id) nofun
    · rw [propertyName_one hcs hc, propertyName_one hcs' hc]
      split
      · exact .neither
      · exact .both ⟨rfl, (ended_append rest).ahead, by dsimp only; omega⟩

theorem extends_propertyEscape {negated : Bool} (h : Ended cs cs') (hlength : cs.length ≤ n) :
    Extends (Same n) PastParenthesis (propertyEscape engine f negated cs) (propertyEscape engine f negated cs') := by
  refine (extends_propertyName h hlength).bind ?_ ?_
  · rintro ⟨a, r⟩ ⟨b, r'⟩ ⟨rfl, hr, hrle⟩
    refine .step fun c => ?_
    split
    · exact .neither
    · exact .step fun k => .both ⟨rfl, hr, hrle⟩
  · rintro ⟨a, r⟩ hr p hp
    obtain ⟨c, -, hp⟩ := Option.bind_eq_some_iff.1 hp
    split at hp
    · cases hp
    · obtain ⟨k, -, hp⟩ := Option.bind_eq_some_iff.1 hp
      cases hp
      exact hr

/-! ## Edges of words -/

theorem same_edgeName (h : Ended cs cs') (hlength : cs.length ≤ n) {fuel fuel' : Nat} (hfuel : cs.length < fuel)
    (hfuel' : cs'.length < fuel') : Same n (edgeName f fuel cs) (edgeName f fuel' cs') := by
  refine h.rounds f (P := fun k k' cs cs' => Same n (edgeName f k cs) (edgeName f k' cs')) ?_ ?_ hlength hfuel hfuel'
  · intro k k' cs' h
    rcases h.nil_or with rfl | rfl
    · exact ⟨rfl, .inl rfl, Nat.zero_le n⟩
    · exact ⟨rfl, h, Nat.zero_le n⟩
  · intro k k' c rest hlt hmore
    rw [edgeName, edgeName]
    split
    · exact ⟨congrArg (c :: ·) hmore.value, hmore.ended, hmore.length⟩
    · exact ⟨rfl, ended_cons c rest, hlt⟩

/-- What is read into the ending behind a backslash: the parenthesis, or the edge of a word
    before a brace that nothing closes. -/
def PastEscape (f : Flags) (p : Atom × List Char) : Prop :=
  p.2 <:+ ['$'] ∨ ∃ q rest, p = (.place q, '{' :: rest) ∧ f.ahead rest = ending

theorem namedEdge_ne {u : Bool} {name : List Char} (hc : c ≠ '}') : namedEdge? u name (c :: rest) = none := by
  unfold namedEdge?
  split
  · next heq => exact absurd (List.cons.inj heq).1 hc
  · rfl

theorem extends_namedEdge {u : Bool} {name : List Char} (h : Ended cs cs') (hlength : cs.length ≤ n) :
    Extends (Same n) Nowhere (namedEdge? u name cs) (namedEdge? u name cs') := by
  cases cs with
  | nil =>
    rcases h.nil_or with rfl | rfl
    · exact .neither
    · exact .neither
  | cons c rest =>
    obtain ⟨rest', rfl, hrest⟩ := h.cons
    by_cases hc : c = '}'
    · subst hc
      rw [List.length_cons] at hlength
      exact .step fun q => .both ⟨rfl, hrest, by dsimp only; omega⟩
    · rw [namedEdge_ne hc, namedEdge_ne hc]
      exact .neither

theorem edgeEscape_ne (hc : c ≠ '{') : edgeEscape f (c :: rest) = some (.place (.wordEdge f.isUnicode), c :: rest) := by
  unfold edgeEscape
  split
  · next heq => exact absurd (List.cons.inj heq).1 hc
  · rfl

theorem edgeEscape_brace_nil (h : f.ahead rest = []) : edgeEscape f ('{' :: rest) = none := by
  simp only [edgeEscape, h]

theorem edgeEscape_brace {more : List Char} (h : f.ahead rest = c :: more) : edgeEscape f ('{' :: rest) =
    if isEdgeNameChar c then
      namedEdge? f.isUnicode (edgeName f (rest.length + 1) (c :: more)).1 (edgeName f (rest.length + 1) (c :: more)).2
    else some (.place (.wordEdge f.isUnicode), '{' :: rest) := by
  simp only [edgeEscape, h]

theorem extends_edgeEscape (h : Ended cs cs') (hlength : cs.length ≤ n) :
    Extends (Same n) (PastEscape f) (edgeEscape f cs) (edgeEscape f cs') := by
  cases cs with
  | nil =>
    rcases h.nil_or with rfl | rfl
    · exact .both ⟨rfl, h, hlength⟩
    · exact .both ⟨rfl, h, hlength⟩
  | cons c rest =>
    obtain ⟨rest', rfl, hrest⟩ := h.cons
    by_cases hc : c = '{'
    · subst hc
      rcases hrest.next f with ⟨hmore, hmore'⟩ | ⟨d, more, hmore, hmore', -⟩
      · rw [edgeEscape_brace_nil hmore]
        rcases hmore' with hmore' | hmore'
        · rw [edgeEscape_brace hmore']
          exact .over (.inr ⟨_, rest', rfl, hmore'⟩)
        · rw [edgeEscape_brace_nil hmore']
          exact .neither
      · rw [edgeEscape_brace hmore, edgeEscape_brace hmore']
        split
        · have hle := length_ahead_le f rest
          have hle' := length_ahead_le f rest'
          rw [List.length_cons] at hlength
          rw [hmore] at hle
          rw [hmore'] at hle'
          have hname := same_edgeName (f := f) (n := n) (ended_cons d more) (by omega) (Nat.lt_succ_of_le hle)
            (Nat.lt_succ_of_le hle')
          rw [hname.value]
          exact (extends_namedEdge hname.ended hname.length).mono (fun _ _ => id) nofun
        · exact .both ⟨rfl, h, hlength⟩
    · rw [edgeEscape_ne hc, edgeEscape_ne hc]
      exact .both ⟨rfl, h, hlength⟩

/-! ## Escapes -/

theorem extends_escape (h : Ended cs cs') (hlength : cs.length ≤ n) :
    Extends (Same n) (PastEscape f) (escape engine f cs) (escape engine f cs') := by
  cases cs with
  | nil =>
    rcases h.nil_or with rfl | rfl
    · have hescape : escape engine f ending = some (.char ')', ['$']) := by
        simp [escape, ending, letterClass?, isEscapable, isMeta]
      rw [hescape]
      exact .over (.inl (List.suffix_refl _))
    · exact .neither
  | cons c rest =>
    obtain ⟨rest', rfl, hrest⟩ := h.cons
    rw [List.length_cons] at hlength
    have hle : rest.length ≤ n := by omega
    have hsame (a : Atom) : Extends (Same n) (PastEscape f) (some (a, rest)) (some (a, rest')) := .both ⟨rfl, hrest, hle⟩
    unfold escape
    dsimp only
    split
    · split
      · exact .neither
      · exact hsame _
    by_cases hx : c = 'x'
    · rw [if_pos hx, if_pos hx]
      exact (extends_hexEscape hrest hle).mono (fun _ _ => id) nofun
    rw [if_neg hx, if_neg hx]
    by_cases hu : c = 'u'
    · rw [if_pos hu, if_pos hu]
      exact (extends_hexEscape hrest hle).mono (fun _ _ => id) nofun
    rw [if_neg hu, if_neg hu]
    by_cases hU : c = 'U'
    · rw [if_pos hU, if_pos hU]
      exact (extends_hexEscape hrest hle).mono (fun _ _ => id) nofun
    rw [if_neg hU, if_neg hU]
    by_cases hp : c = 'p' ∨ c = 'P'
    · rw [if_pos hp, if_pos hp]
      exact (extends_propertyEscape hrest hle).mono (fun _ _ => id) fun _ => .inl
    rw [if_neg hp, if_neg hp]
    cases isEscapable c with
    | true => exact hsame _
    | false =>
      rw [if_neg Bool.false_ne_true, if_neg Bool.false_ne_true]
      split
      iterate 8 exact hsame _
      · exact extends_edgeEscape hrest hle
      iterate 3 exact hsame _
      · exact .neither

end LineMatch.Pattern
