/-
  LineMatch.Proofs.Json.Follows — readers and blanks.

  `Follows S r T`: from a place where `S` holds, `r` comes without a clash to a place where
  `T` holds, and it reads the same from each text that is the same when tight. It goes
  along with binds, so a reader follows when its parts do. A reader of values begins where
  no word went before, and ends outside strings (`Begins`).

  Proved:
  - `follows_peekPastBlanks`: the next character that is no blank is the same.
  - `follows_next`, `follows_peek`: in a word, so is a character of the word, and whether
    there is one.
  - `follows_restOfWord`, `follows_digits`: words and digits.
-/

import LineMatch.Proofs.Json.Spacing

namespace LineMatch.Json.Read

open LineMatch.Number (isDigit)

/-- What is known of a place: its standing and the text that is left. -/
abbrev Where := Standing → List Char → Prop

variable {α β σ : Type} {S S' : Where} {T T' : α → Where} {U : β → Where} {r : Read α} {f : α → Read β} {a : α}
  {P : Standing → Prop} {x y : List Char} {s t : Standing} {c d : Cursor} {ch w : Char}

def Follows (S : Where) (r : Read α) (T : α → Where) : Prop :=
  ∀ s (c : Cursor) a c', S s c.rest → r c = .ok (a, c') → ∃ s', Path s' c'.rest s c.rest ∧ T a s' c'.rest ∧
    ∀ t (d : Cursor), S t d.rest → tight t d.rest = tight s c.rest →
      ∃ t' d', r d = .ok (a, d') ∧ T a t' d'.rest ∧ tight t' d'.rest = tight s' c'.rest

def Outside : Where := fun s _ => s.isOutside = true

def Apart : Where := fun s _ => s = .apart

def InWord : Where := fun s _ => s = .inWord

def Quoted : Where := fun s _ => s = .string

/-- This comes next, and is no blank. -/
def Before (P : Standing → Prop) (o : Option Char) : Where := fun s x => P s ∧ x.head? = o ∧ BeginsSolid x

/-- A reader of values: from where no word went before to somewhere outside strings. -/
abbrev Begins (r : Read α) : Prop := Follows Apart r fun _ => Outside

theorem Apart.outside (h : Apart s x) : Outside s x := by
  rw [Outside, show s = .apart from h]
  rfl

theorem InWord.outside (h : InWord s x) : Outside s x := by
  rw [Outside, show s = .inWord from h]
  rfl

/-! ## Binds -/

theorem Follows.bind (hr : Follows S r T) (hf : ∀ a, Follows (T a) (f a) U) : Follows S (r >>= f) U := by
  intro s c b c' hs h
  obtain ⟨a, e, ha, hb⟩ := bind_ok.1 h
  obtain ⟨s1, hpath1, hT, hsame1⟩ := hr s c a e hs ha
  obtain ⟨s2, hpath2, hU, hsame2⟩ := hf a s1 e b c' hT hb
  refine ⟨s2, hpath1.trans hpath2, hU, fun t d ht htight => ?_⟩
  obtain ⟨t1, d1, ha', hT', htight1⟩ := hsame1 t d ht htight
  obtain ⟨t2, d2, hb', hU', htight2⟩ := hsame2 t1 d1 hT' htight1
  exact ⟨t2, d2, bind_ok.2 ⟨a, d1, ha', hb'⟩, hU', htight2⟩

theorem Follows.pure (h : ∀ s x, S s x → T a s x) : Follows S (Pure.pure a) T := by
  intro s c b c' hs hb
  cases hb
  exact ⟨s, .here, h _ _ hs, fun t d ht htight => ⟨t, d, rfl, h _ _ ht, htight⟩⟩

theorem Follows.mono (h : Follows S r T) (hS : ∀ s x, S' s x → S s x) (hT : ∀ a s x, T a s x → T' a s x) :
    Follows S' r T' := by
  intro s c a c' hs ha
  obtain ⟨s', hpath, hT', hsame⟩ := h s c a c' (hS _ _ hs) ha
  refine ⟨s', hpath, hT _ _ _ hT', fun t d ht htight => ?_⟩
  obtain ⟨t', d', hread, hT'', htight'⟩ := hsame t d (hS _ _ ht) htight
  exact ⟨t', d', hread, hT _ _ _ hT'', htight'⟩

theorem Follows.from (h : Follows S r T) (hS : ∀ s x, S' s x → S s x) : Follows S' r T :=
  h.mono hS fun _ _ _ => id

theorem Follows.to (h : Follows S r T) (hT : ∀ a s x, T a s x → T' a s x) : Follows S r T' :=
  h.mono (fun _ _ => id) hT

/-- What reads nothing follows. -/
theorem Follows.never (h : Ensures r fun _ => False) : Follows S r T :=
  fun _ c a c' _ ha => (h c a c' ha).elim

theorem follows_failHere {cause : SyntaxFault} : Follows S (failHere cause : Read α) T := .never ensures_failHere

theorem follows_failNext {cause : SyntaxFault} : Follows S (failNext cause : Read α) T := .never ensures_failNext

theorem follows_refuse {cause : ShapeFault} : Follows S (refuse cause : Read α) T := .never ensures_refuse

theorem follows_mismatch {expected : String} : Follows S (mismatch expected : Read α) T := .never ensures_mismatch

theorem Follows.map {g : α → β} (h : Follows S r fun _ => S') : Follows S (do let a ← r; Pure.pure (g a)) fun _ => S' :=
  h.bind fun _ => .pure fun _ _ => id

theorem follows_discard (h : Follows S r fun _ => S') : Follows S (discard r) fun _ => S' :=
  h.bind fun _ => .pure fun _ _ => id

/-! ## Characters -/

theorem peekPastBlanks_eq (c : Cursor) : ∃ c', peekPastBlanks c = .ok ((c.rest.dropWhile isSpace).head?, c') ∧
    c'.rest = c.rest.dropWhile isSpace := by
  have hgap : IsBlank (c.rest.takeWhile isSpace) := fun ch hch => List.mem_takeWhile_imp hch
  exact readsTo_peekPastBlanks hgap (beginsSolid_dropWhile _) c List.takeWhile_append_dropWhile.symm

theorem follows_peekPastBlanks (hout : ∀ s, P s → s.isOutside = true)
    (hblank : ∀ s s', P s → s'.isOutside = true → (s = .apart → s' = .apart) → P s') :
    Follows (fun s _ => P s) peekPastBlanks (Before P) := by
  intro s c o c' hs h
  obtain ⟨e, he, hrest⟩ := peekPastBlanks_eq c
  obtain ⟨rfl, rfl⟩ := Prod.mk.inj (Except.ok.inj (he.symm.trans h))
  obtain ⟨s', hpath, htight, hs', hapart⟩ := tight_dropWhile (hout s hs) c.rest
  have hsolid : BeginsSolid e.rest := hrest ▸ beginsSolid_dropWhile c.rest
  refine ⟨s', hrest ▸ hpath, ⟨hblank s s' hs hs' hapart, by rw [hrest], hsolid⟩, fun t d ht hsame => ?_⟩
  obtain ⟨d', hd', hrest'⟩ := peekPastBlanks_eq d
  obtain ⟨t', -, htight', ht', hapart'⟩ := tight_dropWhile (hout t ht) d.rest
  have hsolid' : BeginsSolid d'.rest := hrest' ▸ beginsSolid_dropWhile d.rest
  rw [htight, htight', ← hrest, ← hrest'] at hsame
  have hhead := head?_eq_of_tight hsolid hsolid' hsame
  rw [hrest, hrest'] at hhead
  refine ⟨t', d', by rw [hd', hhead], ⟨hblank t t' ht ht' hapart', by rw [hrest', hhead], hsolid'⟩, hsame⟩

theorem follows_blanks : Follows Outside peekPastBlanks (Before fun s => s.isOutside = true) :=
  follows_peekPastBlanks (fun _ => id) fun _ _ _ h _ => h

theorem follows_apart : Follows Apart peekPastBlanks (Before (· = .apart)) :=
  follows_peekPastBlanks (fun _ h => by rw [h]; rfl) fun _ _ hs _ h => h hs

theorem follows_drop (hP : ∀ s, P s → s.isOutside = true ∧ s.clashes ch = false) :
    Follows (Before P (some ch)) drop fun _ s _ => s = .behind ch := by
  rintro s c a c' ⟨hs, hhead, hsolid⟩ h
  obtain ⟨x, hx⟩ := List.head?_eq_some_iff.1 hhead
  have hspace : isSpace ch = false := hsolid ch hhead
  obtain ⟨e, he, hrest⟩ := readsTo_drop c hx
  obtain ⟨rfl, rfl⟩ := Prod.mk.inj (Except.ok.inj (he.symm.trans h))
  have hnext : s.next ch = .behind ch := Standing.next_solid (hP s hs).1 hspace
  refine ⟨.behind ch, ?_, rfl, ?_⟩
  · rw [hx, hrest]
    exact .past (hP s hs).2 (hnext ▸ .here)
  rintro t d ⟨ht, hhead', -⟩ hsame
  obtain ⟨y, hy⟩ := List.head?_eq_some_iff.1 hhead'
  obtain ⟨d', hd', hrest'⟩ := readsTo_drop d hy
  rw [hx, hy] at hsame
  exact ⟨.behind ch, d', hd', rfl, by rw [hrest, hrest', tight_drop (hP s hs).1 (hP t ht).1 hspace hsame]⟩

theorem Before.outside {o : Option Char} (h : Before (· = .apart) o s x) :
    Before (fun s => s.isOutside = true) o s x := ⟨Apart.outside (x := x) h.1, h.2⟩

theorem Before.apart {o : Option Char} (h : Before (· = .apart) o s x) : Apart s x := h.1

theorem Before.out {o : Option Char} (h : Before (fun s => s.isOutside = true) o s x) : Outside s x := h.1

/-- Past a bracket, a comma or a colon. -/
theorem follows_mark (h : isMark ch = true) :
    Follows (Before (fun s => s.isOutside = true) (some ch)) drop fun _ => Apart := by
  have hword : isWordChar ch = false := by simp [isWordChar, h]
  refine (follows_drop fun s hs => ⟨hs, Standing.clashes_of_not_word hword⟩).to fun _ s _ hs => ?_
  rw [Apart, hs, Standing.behind_mark h]

theorem follows_quote : Follows (Before (fun s => s.isOutside = true) (some '"')) drop fun _ => Quoted :=
  follows_drop fun _ hs => ⟨hs, Standing.clashes_of_not_word rfl⟩

/-! ## Words -/

/-- From behind no word, or in one, past a character of a word. -/
theorem follows_dropWord (hs : s = .apart ∨ s = .inWord) (hw : isWordChar w = true) :
    Follows (Before (· = s) (some w)) drop fun _ => InWord := by
  have hplace : s.isOutside = true ∧ s.clashes w = false := by
    rcases hs with rfl | rfl <;> exact ⟨rfl, Standing.clashes_of_ne (by decide)⟩
  refine (follows_drop fun s' hs' => hs' ▸ hplace).to fun _ s _ hs => ?_
  rw [InWord, hs, Standing.behind_word hw]

/-- The character of a word that comes next, if one does. -/
def wordAt (x : List Char) : Option Char := x.head?.filter isWordChar

theorem wordAt_eq_some : wordAt x = some w ↔ x.head? = some w ∧ isWordChar w = true := by
  rw [wordAt, Option.filter_eq_some_iff]

theorem wordAt_eq (hs : Ready s x) (ht : Ready t y) (h : tight t y = tight s x) : wordAt y = wordAt x := by
  have hgo {s t x y w} (hs : Ready s x) (ht : Ready t y) (h : tight t y = tight s x) (hw : wordAt x = some w) :
      wordAt y = some w := by
    obtain ⟨hhead, hword⟩ := wordAt_eq_some.1 hw
    obtain ⟨x', rfl⟩ := List.head?_eq_some_iff.1 hhead
    obtain ⟨y', rfl, -⟩ := word_next hs ht hword h
    exact wordAt_eq_some.2 ⟨rfl, hword⟩
  refine Option.ext fun w => ⟨hgo ht hs h.symm, hgo hs ht h⟩

/-- A character is taken that must be one of a word. -/
theorem follows_next {f : Option Char → Read β} (hword : ∀ w, isWordChar w = true → Follows InWord (f (some w)) U)
    (hother : ∀ o, (∀ w ∈ o, isWordChar w = false) → Ensures (f o) fun _ => False) :
    Follows Ready (next >>= f) U := by
  intro s c b c' hs h
  obtain ⟨o, e, ho, hb⟩ := bind_ok.1 h
  cases hrest : c.rest with
  | nil =>
    rw [next, hrest] at ho
    cases ho
    exact (hother none (fun _ hw => by cases hw) _ b c' hb).elim
  | cons w x =>
    rw [next, hrest] at ho
    cases ho
    cases hw : isWordChar w with
    | false =>
      refine (hother (some w) ?_ _ b c' hb).elim
      rintro _ ⟨⟩
      exact hw
    | true =>
      have hplace : s.isOutside = true ∧ s ≠ .pastWord := by rcases hs with rfl | ⟨rfl, -⟩ <;> decide
      have hnext : s.next w = .inWord := Standing.next_word hplace.1 hw
      obtain ⟨s', hpath, hU, hsame⟩ := hword w hw .inWord _ b c' rfl hb
      rw [rest_past] at hpath hsame
      refine ⟨s', .past (Standing.clashes_of_ne hplace.2) (hnext ▸ hpath), hU, fun t d ht htight => ?_⟩
      obtain ⟨y, hy, htight'⟩ := word_next (hrest ▸ hs) ht hw htight
      obtain ⟨t', d', hread, hU', hend⟩ := hsame .inWord (d.past w y) rfl (by rw [rest_past, htight'])
      exact ⟨t', d', bind_ok.2 ⟨some w, d.past w y, by rw [next, hy], hread⟩, hU', hend⟩

/-- In a word one looks only at what may go on with it. -/
theorem follows_peek {f : Option Char → Read β} (hother : ∀ c, isWordChar c = false → f (some c) = f none)
    (hnone : Follows InWord (f none) U)
    (hword : ∀ w, isWordChar w = true → Follows (Before (· = .inWord) (some w)) (f (some w)) U) :
    Follows InWord (peek >>= f) U := by
  -- The two texts may go on with a blank and a mark here, or end: that is all the same to `f`.
  have hpeek (c : Cursor) : (peek >>= f) c = f (wordAt c.rest) c := by
    have hbind : (peek >>= f) c = f c.rest.head? c := rfl
    rw [hbind, wordAt]
    cases c.rest.head? with
    | none => rfl
    | some w =>
      cases hw : isWordChar w with
      | true => rw [Option.filter_some, if_pos hw]
      | false => rw [Option.filter_some, hw, if_neg Bool.false_ne_true, hother w hw]
  have hat (o : Option Char) : Follows (fun s x => s = .inWord ∧ wordAt x = o) (f o) U := by
    cases o with
    | none => exact hnone.from fun _ _ h => h.1
    | some w =>
      by_cases hw : isWordChar w = true
      · refine (hword w hw).from fun s x h => ⟨h.1, (wordAt_eq_some.1 h.2).1, fun c hc => ?_⟩
        obtain rfl := Option.some.inj ((wordAt_eq_some.1 h.2).1.symm.trans hc)
        exact isSpace_of_isWordChar hw
      · intro s c _ _ h _
        exact absurd (wordAt_eq_some.1 h.2).2 hw
  intro s c b c' hs h
  rw [hpeek] at h
  obtain ⟨s', hpath, hU, hsame⟩ := hat _ s c b c' ⟨hs, rfl⟩ h
  refine ⟨s', hpath, hU, fun t d ht htight => ?_⟩
  rw [hpeek]
  have hword := wordAt_eq (.inl hs) (.inl ht) htight
  rw [hword]
  exact hsame t d ⟨ht, hword⟩ htight

theorem follows_restOfWord {ws : List Char} (h : ws.all isWordChar = true) :
    Follows InWord (restOfWord ws) fun _ => InWord := by
  induction ws with
  | nil => exact .pure fun _ _ => id
  | cons w ws ih =>
    rw [List.all_cons, Bool.and_eq_true] at h
    refine (follows_next (fun c hc => ?_) fun o ho => ?_).from fun _ _ => .inl
    · dsimp only
      split
      · exact ih h.2
      · exact follows_failHere
    · cases o with
      | none => exact ensures_failHere
      | some c =>
        have hne : c ≠ w := by
          rintro rfl
          exact absurd (ho c rfl) (by rw [h.1]; decide)
        dsimp only
        rw [if_neg hne]
        exact ensures_failHere

theorem isWordChar_of_isDigit (h : isDigit w = true) : isWordChar w = true := by
  simp only [isDigit, Bool.and_eq_true, decide_eq_true_eq] at h
  obtain ⟨h0, h9⟩ := h
  have hne (c : Char) (hc : ¬('0' ≤ c ∧ c ≤ '9')) : w ≠ c := by
    rintro rfl
    exact hc ⟨h0, h9⟩
  simp [isWordChar, isSpace, isMark, hne]

/-- Digits are read the same, and what is left after them is the same. -/
theorem tight_digits (x : List Char) : Path .inWord (x.dropWhile isDigit) .inWord x ∧
    ∀ y, tight .inWord y = tight .inWord x → y.takeWhile isDigit = x.takeWhile isDigit ∧
      tight .inWord (y.dropWhile isDigit) = tight .inWord (x.dropWhile isDigit) := by
  induction x with
  | nil =>
    refine ⟨.here, fun y h => ?_⟩
    cases y with
    | nil => exact ⟨rfl, rfl⟩
    | cons w y =>
      have hw : isDigit w = false := by
        by_contra hw
        obtain ⟨_, hnil, -⟩ := word_next (.inl rfl) (.inl rfl) (isWordChar_of_isDigit (by simpa using hw)) h.symm
        cases hnil
      simp [hw, h]
  | cons w x ih =>
    cases hw : isDigit w with
    | true =>
      have hword := isWordChar_of_isDigit hw
      have hnext : Standing.inWord.next w = .inWord := Standing.next_word rfl hword
      refine ⟨?_, fun y h => ?_⟩
      · rw [List.dropWhile_cons_of_pos hw]
        exact .past (Standing.clashes_of_ne (by decide)) (by rw [hnext]; exact ih.1)
      · obtain ⟨y', rfl, htight⟩ := word_next (.inl rfl) (.inl rfl) hword h
        simpa [hw] using ih.2 y' htight
    | false =>
      refine ⟨by simpa [hw] using Path.here, fun y h => ?_⟩
      cases y with
      | nil => simp [hw, h]
      | cons v y =>
        have hv : isDigit v = false := by
          by_contra hv
          have hv : isDigit v = true := by simpa using hv
          obtain ⟨_, heq, -⟩ := word_next (.inl rfl) (.inl rfl) (isWordChar_of_isDigit hv) h.symm
          rw [(List.cons.inj heq).1, hv] at hw
          cases hw
        simp [hv, hw, h]

theorem takeWhile_eq (p : Char → Bool) (c : Cursor) : ∃ c', takeWhile p c = .ok (c.rest.takeWhile p, c') ∧
    c'.rest = c.rest.dropWhile p := by
  have hhead : ∀ ch ∈ (c.rest.dropWhile p).head?, p ch = false := by
    intro ch hch
    have h := List.head?_dropWhile_not p c.rest
    rw [Option.mem_def.1 hch] at h
    simpa using h
  exact readsTo_takeWhile (fun ch hch => List.mem_takeWhile_imp hch) hhead c List.takeWhile_append_dropWhile.symm

theorem follows_digits : Follows InWord (takeWhile isDigit) fun _ => InWord := by
  rintro s c ds c' rfl h
  obtain ⟨e, he, hrest⟩ := takeWhile_eq isDigit c
  obtain ⟨rfl, rfl⟩ := Prod.mk.inj (Except.ok.inj (he.symm.trans h))
  obtain ⟨hpath, hsame⟩ := tight_digits c.rest
  refine ⟨.inWord, hrest ▸ hpath, rfl, ?_⟩
  rintro t d rfl htight
  obtain ⟨d', hd', hrest'⟩ := takeWhile_eq isDigit d
  obtain ⟨hdigits, hleft⟩ := hsame d.rest htight
  exact ⟨.inWord, d', by rw [hd', hdigits], rfl, by rw [hrest, hrest', hleft]⟩

end LineMatch.Json.Read
