/-
  LineMatch.Proofs.Json.Begins — readers of values and blanks.

  A reader of values begins where no word went before, and ends outside strings; between
  elements and members it stands at a value or behind one (`AtValue`). Rounds are counted
  by the text that is left, so the count never runs out: a round takes a character.

  Proved:
  - `Begins.list`, `Begins.object`, `Begins.record`: containers follow when what is in them does.
  - `begins_any`: values of any shape.
  - `Begins.whole`: a text that is read has no clash, and is read the same with other blanks.
-/

import LineMatch.Proofs.Json.Scalars

namespace LineMatch.Json.Read

variable {α β σ : Type} {S S' : Where} {T : α → Where} {r : Read α} {f : α → Read β} {a : α} {c c' d e : Cursor}
  {ch w : Char} {x y : List Char} {m n fuel levels : Nat} {isFirst : Bool} {o : Option Char} {b : Option Bracket}
  {element value : Read α}

/-! ## Scalars -/

/-- The characters of a word, its first one included. -/
theorem follows_word {ws : List Char} (h : (w :: ws).all isWordChar = true) (hr : Follows InWord r T) :
    Follows (Before (· = .apart) (some w)) (do drop; restOfWord ws; r) T := by
  rw [List.all_cons, Bool.and_eq_true] at h
  exact (follows_dropWord (.inl rfl) h.1).bind fun _ => (follows_restOfWord h.2).bind fun _ => hr

theorem follows_outside : Follows InWord (pure a) fun _ => Outside := .pure fun _ _ => InWord.outside

theorem follows_stringAs {expected : String} : Follows Apart (stringAs expected) fun _ => Apart := by
  refine follows_apart.bind fun o => ?_
  split
  · exact follows_failNext
  · exact (follows_quote.from fun _ _ => Before.outside).bind fun _ => follows_restOfString
  · exact follows_mismatch

theorem begins_string : Begins string := follows_stringAs.to fun _ _ _ => Apart.outside

theorem begins_bool : Begins bool := by
  refine follows_apart.bind fun o => ?_
  split
  · exact follows_failNext
  · exact follows_word rfl follows_outside
  · exact follows_word rfl follows_outside
  · exact follows_mismatch

theorem begins_null : Begins null := by
  refine follows_apart.bind fun o => ?_
  split
  · exact follows_failNext
  · have hrest : Follows InWord (restOfWord ['u', 'l', 'l']) fun _ => InWord := follows_restOfWord rfl
    exact (follows_dropWord (.inl rfl) rfl).bind fun _ => hrest.to fun _ _ _ => InWord.outside
  · exact follows_mismatch

theorem Begins.orNull (h : Begins value) : Begins (orNull value) := by
  refine follows_apart.bind fun o => ?_
  split
  · exact follows_word rfl follows_outside
  · exact (h.from fun _ _ => Before.apart).map

/-! ## Marks -/

theorem follows_descend {content : Nat → Read α} (hch : isMark ch = true)
    (h : ∀ n, levels = n + 1 → Follows Apart (content n) T) :
    Follows (Before (fun s => s.isOutside = true) (some ch)) (descend levels content) T := by
  unfold descend
  split
  · exact follows_failNext
  · exact (follows_mark hch).bind fun _ => h _ rfl

theorem follows_colon : Follows Outside colon fun _ => Apart := by
  refine follows_blanks.bind fun o => ?_
  split
  · exact follows_mark rfl
  · exact follows_failNext
  · exact follows_failNext

theorem follows_closeList : Follows Outside closeList fun _ => Apart := by
  refine follows_blanks.bind fun o => ?_
  split
  · exact follows_mark rfl
  · refine .never (.after fun _ => .after fun next => ?_)
    split <;> exact ensures_failNext
  · exact follows_failNext
  · exact follows_failNext

theorem follows_closeObject : Follows Outside closeObject fun _ => Apart := by
  refine follows_blanks.bind fun o => ?_
  split
  · exact follows_mark rfl
  · exact follows_failNext
  · exact follows_failNext
  · exact follows_failNext

/-- Where a value begins, or behind one. -/
def AtValue (begins : Bool) : Where := if begins then Apart else Outside

theorem AtValue.outside {s : Standing} {begins : Bool} (h : AtValue begins s x) : Outside s x := by
  cases begins with
  | true => exact Apart.outside h
  | false => exact h

theorem AtValue.apart {begins : Bool} : AtValue begins .apart x := by
  cases begins <;> rfl

theorem follows_hasElement : Follows (AtValue isFirst) (hasElement isFirst) AtValue := by
  cases isFirst with
  | true =>
    refine follows_apart.bind fun o => ?_
    split
    · exact follows_failNext
    · exact .pure fun _ _ h => h.apart.outside
    · exact .pure fun _ _ => Before.apart
  | false =>
    refine follows_blanks.bind fun o => ?_
    split
    · exact follows_failNext
    · exact .pure fun _ _ => Before.out
    · rw [if_neg Bool.false_ne_true]
      split
      · next h =>
        rw [h]
        refine (follows_mark rfl).bind fun _ => follows_apart.bind fun o => ?_
        split
        · exact follows_failNext
        · exact .pure fun _ _ => Before.apart
        · exact follows_failNext
      · exact follows_failNext

/-- A member name begins here, or the members end. -/
def AtName (more : Bool) : Where := if more then Before (fun s => s.isOutside = true) (some '"') else Outside

theorem follows_hasMember : Follows (AtValue isFirst) (hasMember isFirst) AtName := by
  cases isFirst with
  | true =>
    refine follows_apart.bind fun o => ?_
    split
    · exact follows_failNext
    · exact .pure fun _ _ h => h.apart.outside
    · rw [if_pos rfl]
      split
      · next h =>
        rw [h]
        exact .pure fun _ _ => Before.outside
      · exact follows_failNext
  | false =>
    refine follows_blanks.bind fun o => ?_
    split
    · exact follows_failNext
    · exact .pure fun _ _ => Before.out
    · rw [if_neg Bool.false_ne_true]
      split
      · next h =>
        rw [h]
        refine (follows_mark rfl).bind fun _ => follows_apart.bind fun o => ?_
        split
        · exact .pure fun _ _ => Before.outside
        · exact follows_failNext
        · exact follows_failNext
        · exact follows_failNext
      · exact follows_failNext

/-! ## Elements and members -/

theorem Begins.elements (h : Begins element) (fuel : Nat) (isFirst : Bool) :
    Follows (AtValue isFirst) (elements element fuel isFirst) fun _ => Outside := by
  induction fuel generalizing isFirst with
  | zero => exact follows_failNext
  | succ fuel ih =>
    refine follows_hasElement.bind fun more => ?_
    cases more with
    | true => exact h.bind fun a => (ih false).map
    | false => exact .pure fun _ _ => id

theorem Begins.position (h : Begins value) (isFirst : Bool) :
    Follows (AtValue isFirst) (position isFirst value) fun _ => Outside := by
  refine follows_hasElement.bind fun more => ?_
  cases more with
  | true => exact h.map
  | false => exact .pure fun _ _ => id

/-- The first field of a record written as an array. -/
theorem Begins.first (h : Begins value) : Begins (Read.position true value) := h.position true

/-- A field behind others. -/
theorem Begins.field (h : Begins value) : Follows Outside (Read.position false value) fun _ => Outside :=
  h.position false

theorem begins_members {member : σ → String → Read σ} (h : ∀ d name, Begins (member d name)) (fuel : Nat)
    (isFirst : Bool) (d : σ) : Follows (AtValue isFirst) (members member fuel isFirst d) fun _ => Outside := by
  induction fuel generalizing isFirst d with
  | zero => exact follows_failNext
  | succ fuel ih =>
    refine follows_hasMember.bind fun more => ?_
    cases more with
    | true =>
      exact follows_quote.bind fun _ => follows_restOfString.bind fun name => (h d name).bind fun d' => ih false d'
    | false => exact .pure fun _ _ => id

/-! ## Rounds -/

/-- No reader leaves more text than there was. -/
def Consumes (r : Read α) : Prop := ∀ c a c', r c = .ok (a, c') → c'.rest.length ≤ c.rest.length

theorem Follows.consumes {s : Standing} (h : Follows S r T) (hS : ∀ x, S s x) : Consumes r := by
  intro c a c' hread
  obtain ⟨_, hpath, -⟩ := h s c a c' (hS _) hread
  exact hpath.length_le

/-- A count of rounds that depends on the text: `hcount` says that it is large enough. -/
theorem Follows.counted {r : Nat → Read α} (h : ∀ n, Follows S (r n) T)
    (hcount : ∀ n c x, r n c = .ok x → r (c.rest.length + 1) c = .ok x) :
    Follows S (fun c => r (c.rest.length + 1) c) T := by
  intro s c a c' hs hread
  obtain ⟨s', hpath, hT, hsame⟩ := h _ s c a c' hs hread
  refine ⟨s', hpath, hT, fun t d ht htight => ?_⟩
  obtain ⟨t', d', hread', hT', htight'⟩ := hsame t d ht htight
  -- The other text may be the shorter one, and is still read with the count of this one.
  exact ⟨t', d', hcount _ d _ hread', hT', htight'⟩

theorem peekPastBlanks_ok (h : peekPastBlanks c = .ok (o, d)) :
    d.rest.head? = o ∧ d.rest.length ≤ c.rest.length := by
  obtain ⟨e, he, hrest⟩ := peekPastBlanks_eq c
  obtain ⟨rfl, rfl⟩ := Prod.mk.inj (Except.ok.inj (he.symm.trans h))
  exact ⟨by rw [hrest], by rw [hrest]; exact List.length_dropWhile_le _ _⟩

theorem drop_ok {u : Unit} (h : drop c = .ok (u, d)) (hhead : c.rest.head? = some ch) :
    d.rest.length + 1 = c.rest.length := by
  obtain ⟨x, hx⟩ := List.head?_eq_some_iff.1 hhead
  obtain ⟨e, he, hrest⟩ := readsTo_drop c hx
  obtain ⟨-, rfl⟩ := Prod.mk.inj (Except.ok.inj (he.symm.trans h))
  rw [hrest, hx, List.length_cons]

theorem length_pos_of_head? (h : x.head? = some ch) : 0 < x.length := by
  obtain ⟨y, rfl⟩ := List.head?_eq_some_iff.1 h
  exact Nat.succ_pos _

/-- Before the closing bracket stands something, and another element stands behind a comma. -/
theorem hasElement_ok {more : Bool} (h : hasElement isFirst c = .ok (more, d)) :
    0 < c.rest.length ∧ (more = true → d.rest.length + (!isFirst).toNat ≤ c.rest.length) := by
  obtain ⟨o, e, ho, h⟩ := bind_ok.1 h
  obtain ⟨hhead, hle⟩ := peekPastBlanks_ok ho
  split at h
  · cases h
  · cases h
    have hpos := length_pos_of_head? hhead
    exact ⟨by omega, nofun⟩
  · have hpos := length_pos_of_head? hhead
    refine ⟨by omega, fun hmore => ?_⟩
    cases isFirst with
    | true =>
      rw [if_pos rfl] at h
      cases h
      exact hle
    | false =>
      rw [if_neg Bool.false_ne_true] at h
      split at h
      · obtain ⟨_, e', hdrop, h⟩ := bind_ok.1 h
        obtain ⟨o', e'', ho', h⟩ := bind_ok.1 h
        have hcomma := drop_ok hdrop hhead
        have hle' := (peekPastBlanks_ok ho').2
        have hrest : d.rest.length ≤ e''.rest.length := by
          split at h
          · cases h
          · cases h
            exact Nat.le_refl _
          · cases h
        rw [Bool.not_false, Bool.toNat_true]
        omega
      · cases h

theorem elements_count {as : List α} (hel : Consumes element) (h : elements element m isFirst c = .ok (as, d))
    (hn : c.rest.length + isFirst.toNat ≤ n) : elements element n isFirst c = .ok (as, d) := by
  induction m generalizing n isFirst c as with
  | zero => cases h
  | succ m ih =>
    obtain ⟨more, e, hmore, hread⟩ := bind_ok.1 h
    obtain ⟨hpos, hcomma⟩ := hasElement_ok hmore
    cases n with
    | zero => omega
    | succ n =>
      refine bind_ok.2 ⟨more, e, hmore, ?_⟩
      cases more with
      | false => exact hread
      | true =>
        obtain ⟨a, e1, ha, hread⟩ := bind_ok.1 hread
        obtain ⟨as', e2, has, hread⟩ := bind_ok.1 hread
        have hle := hel _ _ _ ha
        have hle' := hcomma rfl
        have hrest : e1.rest.length + false.toNat ≤ n := by
          cases isFirst <;> simp only [Bool.not_true, Bool.not_false, Bool.toNat_true, Bool.toNat_false] at * <;> omega
        cases hread
        exact bind_ok.2 ⟨a, e1, ha, bind_ok.2 ⟨as', d, ih has hrest, rfl⟩⟩

theorem Begins.consumes (h : Begins r) : Consumes r := Follows.consumes (s := .apart) h fun _ => rfl

/-- All the elements of a list, whatever the count they were read with. -/
theorem Begins.allElements (h : Begins element) :
    Begins fun c => Read.elements element (c.rest.length + 1) true c :=
  .counted (fun n => h.elements n true) fun _ _ _ hread => elements_count h.consumes hread (Nat.le_refl _)

theorem Begins.list {element : Nat → Read α} (h : ∀ n, Begins (element n)) : Begins (list levels element) := by
  refine follows_apart.bind fun o => ?_
  split
  · exact follows_failNext
  · refine (follows_descend rfl fun n _ => ?_).from fun _ _ => Before.outside
    refine (h n).allElements.bind fun as => follows_closeList.bind fun _ => ?_
    exact .pure fun _ _ => Apart.outside
  · exact follows_mismatch

/-- A member has a quote at least. -/
theorem hasMember_ok {more : Bool} (h : hasMember isFirst c = .ok (more, d)) :
    0 < c.rest.length ∧ d.rest.length ≤ c.rest.length ∧ (more = true → d.rest.head? = some '"') := by
  obtain ⟨o, e, ho, h⟩ := bind_ok.1 h
  obtain ⟨hhead, hle⟩ := peekPastBlanks_ok ho
  split at h
  · cases h
  · cases h
    have hpos := length_pos_of_head? hhead
    exact ⟨by omega, hle, nofun⟩
  · have hpos := length_pos_of_head? hhead
    cases isFirst with
    | true =>
      rw [if_pos rfl] at h
      split at h
      · next hquote =>
        cases h
        exact ⟨by omega, hle, fun _ => hquote ▸ hhead⟩
      · cases h
    | false =>
      rw [if_neg Bool.false_ne_true] at h
      split at h
      · obtain ⟨_, e', hdrop, h⟩ := bind_ok.1 h
        obtain ⟨o', e'', ho', h⟩ := bind_ok.1 h
        have hcomma := drop_ok hdrop hhead
        obtain ⟨hhead', hle'⟩ := peekPastBlanks_ok ho'
        split at h
        · cases h
          exact ⟨by omega, by omega, fun _ => hhead'⟩
        · cases h
        · cases h
        · cases h
      · cases h

theorem members_count {member : σ → String → Read σ} {draft draft' : σ} (hmember : ∀ d name, Consumes (member d name))
    (h : members member m isFirst draft c = .ok (draft', d)) (hn : c.rest.length < n) :
    members member n isFirst draft c = .ok (draft', d) := by
  induction m generalizing n isFirst c draft with
  | zero => cases h
  | succ m ih =>
    obtain ⟨more, e, hmore, hread⟩ := bind_ok.1 h
    obtain ⟨-, hle, hquote⟩ := hasMember_ok hmore
    cases n with
    | zero => omega
    | succ n =>
      refine bind_ok.2 ⟨more, e, hmore, ?_⟩
      cases more with
      | false => exact hread
      | true =>
        obtain ⟨_, e1, hdrop, hread⟩ := bind_ok.1 hread
        obtain ⟨name, e2, hname, hread⟩ := bind_ok.1 hread
        obtain ⟨draft1, e3, hdraft, hread⟩ := bind_ok.1 hread
        have h1 := drop_ok hdrop (hquote rfl)
        have h2 := follows_restOfString.consumes (s := .string) (fun _ => rfl) _ _ _ hname
        have h3 := hmember _ _ _ _ _ hdraft
        have hrest : e3.rest.length < n := by omega
        exact bind_ok.2 ⟨_, e1, hdrop, bind_ok.2 ⟨name, e2, hname, bind_ok.2 ⟨draft1, e3, hdraft, ih hread hrest⟩⟩⟩

theorem Begins.object {empty : σ} {member : σ → String → Read σ} (h : ∀ d name, Begins (member d name)) :
    Begins (object empty member) :=
  .counted (fun n => begins_members h n true empty) fun _ _ _ hread =>
    members_count (fun d name => (h d name).consumes) hread (Nat.lt_succ_self _)

theorem Begins.record {expected : String} {ofObject ofArray : Nat → Read α} (hobject : ∀ n, Begins (ofObject n))
    (harray : ∀ n, Begins (ofArray n)) : Begins (record levels expected ofObject ofArray) := by
  refine follows_apart.bind fun o => ?_
  split
  · exact follows_failNext
  · refine (follows_descend rfl fun n _ => ?_).from fun _ _ => Before.outside
    exact (harray n).bind fun a => follows_closeList.bind fun _ => .pure fun _ _ => Apart.outside
  · refine (follows_descend rfl fun n _ => ?_).from fun _ _ => Before.outside
    exact (hobject n).bind fun a => follows_closeObject.bind fun _ => .pure fun _ _ => Apart.outside
  · exact follows_mismatch

theorem Begins.once {known : Option α} {name : String} (h : Begins value) : Begins (once known name value) := by
  unfold Read.once
  split
  · exact follows_refuse
  · exact (follows_colon.from fun _ _ => Apart.outside).bind fun _ => h.map

theorem follows_required {known : Option α} {name : String} : Follows S (required known name) fun _ => S := by
  unfold required
  split
  · exact .pure fun _ _ => id
  · exact follows_refuse

theorem follows_variantNamed {known : List (String × α)} {listed : List String} :
    Follows Apart (variantNamed known listed) fun _ => Apart := by
  refine follows_stringAs.bind fun name => ?_
  split
  · exact .pure fun _ _ => id
  · exact follows_refuse

theorem begins_variant {known : List (String × α)} {listed : List String} : Begins (variant levels known listed) := by
  refine follows_apart.bind fun o => ?_
  split
  · refine (follows_descend rfl fun n _ => ?_).from fun _ _ => Before.outside
    refine follows_variantNamed.bind fun a => ?_
    refine (follows_colon.from fun _ _ => Apart.outside).bind fun _ => begins_null.bind fun _ => ?_
    refine follows_blanks.bind fun o => ?_
    split
    · exact (follows_mark rfl).bind fun _ => .pure fun _ _ => Apart.outside
    · exact follows_failHere
    · exact follows_failHere
  · exact (follows_variantNamed.from fun _ _ => Before.apart).to fun _ _ _ => Apart.outside
  · exact follows_failNext
  · exact follows_failNext

/-! ## Any value -/

theorem Begins.scalarOr {container : Read Value}
    (h : ∀ c, c = '[' ∨ c = '\x7b' → Follows (Before (· = .apart) (some c)) container fun _ => Outside) :
    Begins (scalarOr container) := by
  refine follows_apart.bind fun o => ?_
  split
  · exact follows_failNext
  · exact follows_word rfl follows_outside
  · exact follows_word rfl follows_outside
  · exact follows_word rfl follows_outside
  · refine (follows_dropWord (.inl rfl) rfl).bind fun _ => ?_
    exact (follows_number.from fun _ _ => .inl).bind fun _ => follows_outside
  · refine (follows_quote.from fun _ _ => Before.outside).bind fun _ => ?_
    exact follows_restOfString.bind fun _ => .pure fun _ _ => Apart.outside
  · exact h _ (.inl rfl)
  · exact h _ (.inr rfl)
  · split
    · exact (follows_number.from fun _ _ h => .inr ⟨h.1, h.2.2⟩).bind fun _ => follows_outside
    · exact follows_failNext

/-- To take a bracket and look at it is to know it and drop it. -/
theorem follows_nextMark {f : Option Char → Read β} {U : β → Where} (hch : isMark ch = true)
    (h : Follows Apart (f (some ch)) U) : Follows (Before (· = .apart) (some ch)) (next >>= f) U := by
  have hdrop : Follows (Before (· = .apart) (some ch)) (drop >>= fun _ => f (some ch)) U :=
    ((follows_mark hch).from fun _ _ => Before.outside).bind fun _ => h
  have heq {s} {c : Cursor} (hs : Before (· = .apart) (some ch) s c.rest) :
      (next >>= f) c = (drop >>= fun _ => f (some ch)) c := by
    obtain ⟨x, hx⟩ := List.head?_eq_some_iff.1 hs.2.1
    have hnext : next c = .ok (some ch, c.past ch x) := by rw [next, hx]
    have hdrop : drop c = .ok ((), c.past ch x) := by rw [drop, hx]
    have hbind {γ : Type} (r : Read γ) (g : γ → Read β) : (r >>= g) c = (r c >>= fun x => g x.1 x.2) := rfl
    rw [hbind, hbind, hnext, hdrop]
    rfl
  intro s c b c' hs hread
  rw [heq hs] at hread
  obtain ⟨s', hpath, hU, hsame⟩ := hdrop s c b c' hs hread
  refine ⟨s', hpath, hU, fun t d ht htight => ?_⟩
  rw [heq ht]
  exact hsame t d ht htight

theorem follows_containerOf {value : Read Value} (h : Begins value) (hch : ch = '[' ∨ ch = '\x7b') :
    Follows (Before (· = .apart) (some ch)) (containerOf value) fun _ => Outside := by
  rcases hch with rfl | rfl
  · refine follows_nextMark rfl ?_
    exact h.allElements.bind fun vs => follows_closeList.bind fun _ => .pure fun _ _ => Apart.outside
  · refine follows_nextMark rfl ?_
    have hmember (ms : List (String × Value)) (name : String) : Begins (do
        colon
        let v ← value
        pure ((name, v) :: ms)) := (follows_colon.from fun _ _ => Apart.outside).bind fun _ => h.map
    exact (Begins.object hmember).bind fun ms => follows_closeObject.bind fun _ => .pure fun _ _ => Apart.outside

theorem begins_any (levels : Nat) : Begins (any levels) := by
  induction levels with
  | zero => exact .scalarOr fun _ _ => follows_failNext
  | succ n ih => exact .scalarOr fun _ hch => follows_containerOf ih hch

/-! ## Whole texts -/

/-- A text that is read has no clash, and is read the same with other blanks. -/
theorem Begins.whole {value : Nat → Read α} {text : String} (h : Begins (value maxLevels))
    (hread : whole value text = .ok a) : ¬Clashes .apart text.toList ∧ ∀ text' : String,
      tight .apart text'.toList = tight .apart text.toList → Read.whole value text' = .ok a := by
  obtain ⟨c, c', hvalue, hend⟩ := whole_ok_iff.1 hread
  obtain ⟨s, hpath, hs, hsame⟩ := h .apart _ a c rfl hvalue
  obtain ⟨s', hpath', ⟨-, hhead, -⟩, hsame'⟩ := follows_blanks s c none c' hs hend
  refine ⟨?_, fun text' htight => ?_⟩
  · have hall := hpath.trans hpath'
    rw [List.head?_eq_none_iff.1 hhead] at hall
    exact hall.not_clashes
  · obtain ⟨t, d, hvalue', ht, htight'⟩ := hsame .apart (Cursor.ofText text') rfl htight
    obtain ⟨_, d', hend', -⟩ := hsame' t d ht htight'
    exact whole_ok_iff.2 ⟨d, d', hvalue', hend'⟩

end LineMatch.Json.Read
