/-
  LineMatch.Proofs.Json.Reads — reading what was written.

  `ReadsTo r before after a` says that `r` reads `a` from the text `before` and leaves
  `after`, wherever the text stands; it goes along with binds. `Reads r cs a` says so of a
  value written as `cs`, with blanks before it and whatever may follow a value. Objects are
  read member by member, from draft to draft (`MembersTo`).

  Proved:
  - `readsTo_restOfString`, `readsTo_number`: escaped strings and whole numbers of 64 bits
    are read back.
  - `reads_list`, `reads_record`: and so are lists and records of what is.
  - `reads_any`: and any value that does not nest too deep.
-/

import LineMatch.Proofs.Json.Ensures
import LineMatch.Proofs.Json.Layout

namespace LineMatch.Json.Read

open LineMatch.Number (isDigit digitValue maxUnsigned)

variable {α β σ : Type} {r : Read α} {f : α → Read β} {a : α} {b : β} {x y z rest gap cs : List Char}
  {c : Char} {p : Char → Bool}

/-- From the text `before`, at any place, `r` reads `a` and leaves `after`. -/
def ReadsTo (r : Read α) (before after : List Char) (a : α) : Prop :=
  ∀ c : Cursor, c.rest = before → ∃ c', r c = .ok (a, c') ∧ c'.rest = after

theorem ReadsTo.bind (h : ReadsTo r x y a) (h' : ReadsTo (f a) y z b) : ReadsTo (r >>= f) x z b := by
  intro c hc
  obtain ⟨d, hr, hd⟩ := h c hc
  obtain ⟨e, hf, he⟩ := h' d hd
  exact ⟨e, bind_ok.2 ⟨a, d, hr, hf⟩, he⟩

theorem ReadsTo.pure : ReadsTo (Pure.pure a) x x a := fun c hc => ⟨c, rfl, hc⟩

/-! ## Characters -/

theorem readsTo_peek : ReadsTo peek x x x.head? := fun c hc => ⟨c, by rw [peek, hc], hc⟩

theorem rest_past {at_ : Cursor} : (at_.past c rest).rest = rest := by
  unfold Cursor.past
  split <;> rfl

theorem readsTo_next : ReadsTo next (c :: x) x (some c) :=
  fun d hd => ⟨d.past c x, by rw [next, hd], rest_past⟩

theorem readsTo_drop : ReadsTo drop (c :: x) x () :=
  fun d hd => ⟨d.past c x, by rw [drop, hd], rest_past⟩

theorem takeFrom_append (hcs : ∀ c ∈ cs, p c = true) (hx : ∀ c ∈ x.head?, p c = false) (d : Cursor) :
    (takeFrom p d (cs ++ x)).1 = cs ∧ (takeFrom p d (cs ++ x)).2.rest = x := by
  induction cs generalizing d with
  | nil =>
    rcases x with _ | ⟨c, x⟩
    · exact ⟨rfl, rfl⟩
    · simp [takeFrom, hx c rfl]
  | cons c cs ih =>
    rw [List.forall_mem_cons] at hcs
    obtain ⟨h1, h2⟩ := ih hcs.2 (d.past c (cs ++ x))
    simp [takeFrom, hcs.1, h1, h2]

theorem readsTo_takeWhile (hcs : ∀ c ∈ cs, p c = true) (hx : ∀ c ∈ x.head?, p c = false) :
    ReadsTo (takeWhile p) (cs ++ x) x cs := by
  intro d hd
  obtain ⟨h1, h2⟩ := takeFrom_append hcs hx d
  refine ⟨_, ?_, h2⟩
  rw [takeWhile, hd]
  exact congrArg _ (Prod.ext h1 rfl)

/-- A text that is empty or begins with something else than a blank. -/
def BeginsSolid (x : List Char) : Prop := ∀ c ∈ x.head?, isSpace c = false

theorem beginsSolid_cons (h : isSpace c = false) : BeginsSolid (c :: x) := by
  rintro d ⟨⟩
  exact h

theorem readsTo_peekPastBlanks (hgap : IsBlank gap) (hx : BeginsSolid x) :
    ReadsTo peekPastBlanks (gap ++ x) x x.head? :=
  (readsTo_takeWhile hgap hx).bind readsTo_peek

theorem readsTo_peekSolid (hx : BeginsSolid x) : ReadsTo peekPastBlanks x x x.head? :=
  readsTo_peekPastBlanks isBlank_nil hx

theorem readsTo_restOfWord {w : List Char} : ReadsTo (restOfWord w) (w ++ x) x () := by
  induction w with
  | nil => exact .pure
  | cons c w ih =>
    refine ReadsTo.bind readsTo_next ?_
    dsimp only
    rw [if_pos rfl]
    exact ih

/-! ## Strings -/

theorem hexValue?_digitChar : ∀ n < 16, hexValue? n.digitChar = some n ∧ Text.width n.digitChar = 1 := by
  decide

/-- What an escape is read as. -/
theorem stringFrom_escaped (h : Escaped c cs) (at_ : Cursor) (rest : List Char) :
    ∃ at', stringFrom .keep .plain at_ (cs ++ rest) =
      (stringFrom .keep .plain at' rest).map fun (ds, e) => (c :: ds, e) := by
  cases h with
  | letter d h hd =>
    refine ⟨(at_.past '\\' (d :: rest)).past d rest, ?_⟩
    simp [stringFrom, hd, h]
  | hex h =>
    obtain ⟨h1, w1⟩ := hexValue?_digitChar (c.toNat / 16) (by omega)
    obtain ⟨h2, w2⟩ := hexValue?_digitChar (c.toNat % 16) (by omega)
    have hvalue : c.toNat / 16 * 16 + c.toNat % 16 = c.toNat := by omega
    have h0 : hexValue? '0' = some 0 := rfl
    have w0 : Text.width '0' = 1 := rfl
    have hdone : hexDone .keep none c.toNat = .ok (some c, .plain) := by
      have htrailing : isTrailing c.toNat = false := by simp [isTrailing]; omega
      have hleading : isLeading c.toNat = false := by simp [isLeading]; omega
      simp [hexDone, htrailing, hleading]
    apply Exists.intro
    simp [stringFrom, h0, h1, h2, w0, w1, w2, hvalue, hdone]
    rfl
  | plain hquote hbackslash h =>
    refine ⟨at_.past c rest, ?_⟩
    simp [stringFrom, hquote, hbackslash]
    omega

theorem stringFrom_escapedChars (cs rest : List Char) (at_ : Cursor) :
    ∃ at', stringFrom .keep .plain at_ (cs.flatMap (fun c => (Value.escapeChar c).toList) ++ '"' :: rest) =
      .ok (cs, at') ∧ at'.rest = rest := by
  induction cs generalizing at_ with
  | nil => exact ⟨at_.past '"' rest, rfl, rest_past⟩
  | cons c cs ih =>
    rw [List.flatMap_cons, List.append_assoc]
    obtain ⟨at1, h1⟩ := stringFrom_escaped (escaped_escapeChar c) at_
      (cs.flatMap (fun c => (Value.escapeChar c).toList) ++ '"' :: rest)
    obtain ⟨at2, h2, hrest⟩ := ih at1
    rw [h1, h2]
    exact ⟨at2, rfl, hrest⟩

theorem readsTo_restOfString {s : String} : ReadsTo restOfString (escapedText s ++ '"' :: x) x s := by
  intro c hc
  obtain ⟨c', h, hrest⟩ := stringFrom_escapedChars s.toList x c
  refine ⟨c', ?_, hrest⟩
  rw [restOfString, hc, escapedText, h]
  simp [Except.map]

/-! ## Numbers -/

/-- A text that is empty or begins with what cannot go on a number. -/
def Stops (x : List Char) : Prop := ∀ c ∈ x.head?, isDigit c = false ∧ c ≠ '.' ∧ c ≠ 'e' ∧ c ≠ 'E'

theorem stops_cons (h : isDigit c = false ∧ c ≠ '.' ∧ c ≠ 'e' ∧ c ≠ 'E') : Stops (c :: x) := by
  rintro d ⟨⟩
  exact h

theorem le_ofDigitChars {n : Nat} : n ≤ Nat.ofDigitChars 10 cs n := by
  induction cs generalizing n with
  | nil => exact Nat.le_refl n
  | cons c cs ih =>
    rw [Nat.ofDigitChars_cons]
    exact Nat.le_trans (by omega) ih

theorem significand_eq {n : Nat} (h : Nat.ofDigitChars 10 cs n ≤ maxUnsigned) :
    significand n cs = (Nat.ofDigitChars 10 cs n, 0) := by
  induction cs generalizing n with
  | nil => rfl
  | cons c cs ih =>
    rw [Nat.ofDigitChars_cons] at h ⊢
    have hstep : 10 * n + (c.toNat - '0'.toNat) = n * 10 + digitValue c := by
      rw [digitValue, Nat.mul_comm]
      rfl
    rw [hstep] at h ⊢
    have hm := Nat.le_trans le_ofDigitChars h
    rw [← ih h, significand, significand, List.foldl_cons]
    simp [hm]

theorem toDigits_of_zero {n : Nat} (h : Nat.toDigits 10 n = '0' :: cs) : n = 0 := by
  induction n using Nat.strongRecOn generalizing cs with
  | ind n ih =>
    rw [Nat.toDigits_eq_if (by decide)] at h
    split at h
    · next hn =>
      have hdigit : ∀ n < 10, n.digitChar = '0' → n = 0 := by decide
      exact hdigit n hn (List.cons.inj h).1
    · next hn =>
      obtain ⟨d, ds, hd⟩ := List.exists_cons_of_ne_nil (Nat.toDigits_ne_nil (n := n / 10) (b := 10))
      rw [hd] at h
      cases h
      have := ih (n / 10) (by omega) hd
      omega

/-- The digits of a number, the first of which stands alone only if it is a zero. -/
theorem digits_cons (n : Nat) : ∃ d ds, Nat.toDigits 10 n = d :: ds ∧ isDigit d = true ∧
    (∀ c ∈ ds, isDigit c = true) ∧ (d = '0' → ds = []) := by
  obtain ⟨d, ds, h⟩ := List.exists_cons_of_ne_nil (Nat.toDigits_ne_nil (n := n) (b := 10))
  have hdigit (c : Char) (hc : c ∈ d :: ds) : isDigit c = true :=
    Nat.isDigit_of_mem_toDigits (by decide) (by decide) (h ▸ hc)
  refine ⟨d, ds, h, hdigit d List.mem_cons_self, fun c hc => hdigit c (List.mem_cons_of_mem _ hc), ?_⟩
  rintro rfl
  have hzero := toDigits_of_zero h
  rw [hzero] at h
  exact ((List.cons.inj h).2).symm

theorem readsTo_digitsAfter {d : Char} {ds : List Char} (hds : ∀ c ∈ ds, isDigit c = true)
    (hzero : d = '0' → ds = []) (hrest : Stops rest) : ReadsTo (digitsAfter d) (ds ++ rest) rest ds := by
  unfold digitsAfter
  split
  · next hd =>
    rw [hzero hd]
    refine ReadsTo.bind readsTo_peek ?_
    rcases rest with _ | ⟨c, rest⟩
    · exact .pure
    · dsimp only [List.nil_append, List.head?_cons]
      rw [if_neg (by simp [(hrest c rfl).1])]
      exact .pure
  · exact readsTo_takeWhile hds fun c hc => (hrest c hc).1

theorem readsTo_afterDigits {isNegative : Bool} {n : Nat} (h : isNegative = true → 0 < n ∧ n ≤ Nat.pow 2 63)
    (hrest : Stops rest) :
    ReadsTo (afterDigits isNegative n 0) rest rest (if isNegative then .negative n else .nat n) := by
  refine ReadsTo.bind readsTo_peek ?_
  split
  · next he => exact absurd rfl (hrest _ he).2.1
  · next he => exact absurd rfl (hrest _ he).2.2.1
  · next he => exact absurd rfl (hrest _ he).2.2.2
  · rw [if_neg (by decide)]
    cases isNegative with
    | false => exact .pure
    | true =>
      obtain ⟨hpos, hle⟩ := h rfl
      rw [if_neg (by decide), if_neg (not_or.2 ⟨Nat.pos_iff_ne_zero.1 hpos, Nat.not_lt.2 hle⟩)]
      exact .pure

theorem readsTo_number {n : Nat} {isNegative : Bool} (hrange : n ≤ maxUnsigned)
    (h : isNegative = true → 0 < n ∧ n ≤ Nat.pow 2 63) (hrest : Stops rest) :
    ReadsTo (number isNegative) (Nat.toDigits 10 n ++ rest) rest (if isNegative then .negative n else .nat n) := by
  obtain ⟨d, ds, hn, hd, hds, hzero⟩ := digits_cons n
  have hvalue : Nat.ofDigitChars 10 ds (digitValue d) = n := by
    have hall : Nat.ofDigitChars 10 (Nat.toDigits 10 n) 0 = n := Nat.ofDigitChars_toDigits (by decide) (by decide)
    rw [hn, Nat.ofDigitChars_cons] at hall
    rw [← hall, Nat.mul_zero, Nat.zero_add]
    rfl
  have hsignificand : significand (digitValue d) ds = (n, 0) := by
    rw [significand_eq (hvalue ▸ hrange), hvalue]
  rw [hn]
  refine ReadsTo.bind readsTo_next ?_
  simp only [hd, Bool.not_true, Bool.false_eq_true, if_false]
  refine ReadsTo.bind (readsTo_digitsAfter hds hzero hrest) ?_
  rw [hsignificand]
  exact readsTo_afterDigits h hrest

/-! ## Values -/

/-- `r` reads `a` from a value written as `cs`, with blanks before it, and leaves what
    follows it. -/
def Reads (r : Read α) (cs : List Char) (a : α) : Prop :=
  ∀ gap rest, IsBlank gap → Stops rest → ReadsTo r (gap ++ (cs ++ rest)) rest a

theorem Reads.bind (h : Reads r cs a) (hf : ∀ x, ReadsTo (f a) x x b) : Reads (r >>= f) cs b :=
  fun gap rest hgap hrest => (h gap rest hgap hrest).bind (hf rest)

/-- Values are told apart by the character they begin with. -/
theorem reads_peek {k : Option Char → Read α} (hspace : isSpace c = false)
    (h : ∀ rest, Stops rest → ReadsTo (k (some c)) (c :: (cs ++ rest)) rest a) :
    Reads (peekPastBlanks >>= k) (c :: cs) a :=
  fun _ rest hgap hrest => (readsTo_peekPastBlanks hgap (beginsSolid_cons hspace)).bind (h rest hrest)

theorem reads_stringAs {expected s : String} : Reads (stringAs expected) ('"' :: (escapedText s ++ ['"'])) s := by
  refine reads_peek rfl fun rest _ => ?_
  rw [List.append_assoc]
  exact readsTo_drop.bind readsTo_restOfString

theorem reads_true : Reads bool ['t', 'r', 'u', 'e'] true :=
  reads_peek rfl fun _ _ => readsTo_drop.bind (readsTo_restOfWord.bind .pure)

/-- A value that is not `null`, where `null` could stand. -/
theorem reads_orNull (h : Reads r (c :: cs) a) (hspace : isSpace c = false) (hnull : c ≠ 'n') :
    Reads (orNull r) (c :: cs) (some a) := by
  refine reads_peek hspace fun rest hrest => ?_
  split
  · next he =>
    cases he
    exact absurd rfl hnull
  · exact (h [] rest isBlank_nil hrest).bind .pure

theorem reads_variant {known : List (String × α)} {listed : List String} {levels : Nat} {s : String}
    (h : known.lookup s = some a) : Reads (variant levels known listed) ('"' :: (escapedText s ++ ['"'])) a := by
  have hname : Reads (stringAs "variant identifier") ('"' :: (escapedText s ++ ['"'])) s := reads_stringAs
  refine reads_peek rfl fun rest hrest => (hname [] rest isBlank_nil hrest).bind ?_
  rw [h]
  exact .pure

/-! ## Lists -/

/-- A text that begins as values do. -/
def BeginsValue (cs : List Char) : Prop := ∃ c ds, cs = c :: ds ∧ isSpace c = false ∧ c ≠ ']'

theorem BeginsValue.solid (h : BeginsValue cs) : BeginsSolid (cs ++ rest) := by
  obtain ⟨c, ds, rfl, hspace, -⟩ := h
  exact beginsSolid_cons hspace

theorem stops_blank (hgap : IsBlank gap) (hx : Stops x) : Stops (gap ++ x) := by
  rcases gap with _ | ⟨c, gap⟩
  · exact hx
  · have hc := hgap c List.mem_cons_self
    simp only [isSpace, Bool.or_eq_true, beq_iff_eq] at hc
    rcases hc with ((rfl | rfl) | rfl) | rfl <;> exact stops_cons (by decide)

section

variable {l : Layout} {depth fuel : Nat} {isFirst : Bool} {xs : List (List Char)}

theorem stops_items (hx : Stops x) (hgap : IsBlank gap) : Stops (l.items depth false xs ++ (gap ++ x)) := by
  rcases xs with _ | ⟨y, xs⟩
  · change Stops (gap ++ x)
    exact stops_blank hgap hx
  · exact stops_cons (by decide)

theorem length_items (h : ∀ x ∈ xs, x ≠ []) : xs.length ≤ (l.items depth isFirst xs).length := by
  induction xs generalizing isFirst with
  | nil => exact Nat.zero_le _
  | cons x xs ih =>
    rw [List.forall_mem_cons] at h
    have hx := List.length_pos_iff.2 h.1
    have hxs : xs.length ≤ (l.items depth false xs).length := ih h.2
    simp only [Layout.items, List.length_append, List.length_cons]
    omega

theorem isBlank_closing : IsBlank (if xs.isEmpty then [] else l.gap depth) := by
  split
  · exact isBlank_nil
  · exact l.gap_blank depth

theorem readsTo_hasElement (hgap : IsBlank gap) (hx : BeginsValue x) :
    ReadsTo (hasElement isFirst) ((if isFirst then [] else [',']) ++ (gap ++ (x ++ rest))) (x ++ rest) true := by
  have hsolid : BeginsSolid (x ++ rest) := hx.solid
  obtain ⟨c, ds, rfl, hspace, hclose⟩ := hx
  have hhead : (c :: ds ++ rest).head? = some c := rfl
  cases isFirst with
  | true =>
    rw [if_pos rfl, List.nil_append]
    refine ReadsTo.bind (readsTo_peekPastBlanks hgap hsolid) ?_
    rw [hhead]
    simp only
    exact .pure
  | false =>
    rw [if_neg Bool.false_ne_true, List.cons_append, List.nil_append]
    refine ReadsTo.bind (readsTo_peekSolid (beginsSolid_cons rfl)) ?_
    refine ReadsTo.bind readsTo_drop (ReadsTo.bind (readsTo_peekPastBlanks hgap hsolid) ?_)
    rw [hhead]
    simp only
    exact .pure

theorem readsTo_hasElement_end (hgap : IsBlank gap) :
    ReadsTo (hasElement isFirst) (gap ++ ']' :: x) (']' :: x) false := by
  exact ReadsTo.bind (readsTo_peekPastBlanks hgap (beginsSolid_cons rfl)) .pure

theorem readsTo_closeList : ReadsTo closeList (']' :: x) x () := by
  exact ReadsTo.bind (readsTo_peekSolid (beginsSolid_cons rfl)) readsTo_drop

theorem readsTo_elements {element : Read α} {text : α → List Char} {as : List α}
    (h : ∀ a ∈ as, Reads element (text a) a ∧ BeginsValue (text a)) (hfuel : as.length < fuel)
    (hgap : IsBlank gap) :
    ReadsTo (elements element fuel isFirst) (l.items depth isFirst (as.map text) ++ (gap ++ ']' :: rest))
      (']' :: rest) as := by
  induction as generalizing fuel isFirst with
  | nil =>
    obtain ⟨fuel, rfl⟩ := Nat.exists_eq_succ_of_ne_zero (Nat.ne_zero_of_lt hfuel)
    exact ReadsTo.bind (readsTo_hasElement_end hgap) .pure
  | cons a as ih =>
    obtain ⟨fuel, rfl⟩ := Nat.exists_eq_succ_of_ne_zero (Nat.ne_zero_of_lt hfuel)
    rw [List.forall_mem_cons] at h
    have hstop : Stops (']' :: rest) := stops_cons (by decide)
    simp only [List.map_cons, Layout.items, List.append_assoc]
    refine ReadsTo.bind (readsTo_hasElement (l.gap_blank depth) h.1.2) ?_
    refine ReadsTo.bind (h.1.1 [] _ isBlank_nil (stops_items hstop hgap)) ?_
    exact ReadsTo.bind (ih h.2 (Nat.lt_of_succ_lt_succ hfuel)) .pure

/-- The text is fuel enough for its elements. -/
theorem readsTo_allElements {element : Read α} {text : α → List Char} {as : List α}
    (h : ∀ a ∈ as, Reads element (text a) a ∧ BeginsValue (text a)) (hgap : IsBlank gap) :
    ReadsTo (fun c => elements element (c.rest.length + 1) true c)
      (l.items depth true (as.map text) ++ (gap ++ ']' :: rest)) (']' :: rest) as := by
  intro c hc
  refine readsTo_elements h ?_ hgap c hc
  have hlength : (as.map text).length ≤ (l.items depth true (as.map text)).length := by
    refine length_items fun x hx => ?_
    obtain ⟨a, ha, rfl⟩ := List.mem_map.1 hx
    obtain ⟨c, ds, hcons, -⟩ := (h a ha).2
    rw [hcons]
    nofun
  rw [List.length_map] at hlength
  rw [hc, List.length_append]
  omega

theorem reads_list {element : Nat → Read α} {levels : Nat} {text : α → List Char} {as : List α}
    (h : ∀ a ∈ as, Reads (element levels) (text a) a ∧ BeginsValue (text a)) :
    Reads (list (levels + 1) element) (l.container depth '[' ']' (as.map text)) as := by
  refine reads_peek rfl fun rest _ => ?_
  simp only [List.append_assoc, List.singleton_append]
  refine ReadsTo.bind readsTo_drop (ReadsTo.bind (readsTo_allElements h isBlank_closing) ?_)
  exact readsTo_closeList.bind .pure

end

/-! ## Objects -/

/-- After a name and its colon, `r` reads `a` from a value written as `cs`. -/
def ReadsMember (l : Layout) (r : Read α) (cs : List Char) (a : α) : Prop :=
  ∀ rest, Stops rest → ReadsTo r (':' :: (l.afterColon ++ (cs ++ rest))) rest a

/-- Members that are read one after the other take one draft into another. -/
inductive MembersTo (l : Layout) (depth : Nat) (member : σ → String → Read σ) :
    σ → List (String × Value) → σ → Prop
  | nil {d : σ} : MembersTo l depth member d [] d
  | cons {d e f : σ} {name : String} {v : Value} {ms : List (String × Value)}
    (h : ReadsMember l (member d name) (l.write depth v) e) (hms : MembersTo l depth member e ms f) :
    MembersTo l depth member d ((name, v) :: ms) f

section

variable {l : Layout} {depth fuel levels : Nat} {isFirst : Bool} {member : σ → String → Read σ} {d e f : σ}
  {name : String} {v : Value} {ms ns : List (String × Value)}

theorem MembersTo.append (h : MembersTo l depth member d ms e) (h' : MembersTo l depth member e ns f) :
    MembersTo l depth member d (ms ++ ns) f := by
  induction h with
  | nil => exact h'
  | cons hm _ ih => exact .cons hm (ih h')

theorem MembersTo.one (h : ReadsMember l (member d name) (l.write depth v) e) :
    MembersTo l depth member d [(name, v)] e := .cons h .nil

theorem readsTo_colon : ReadsTo colon (':' :: x) x () := by
  exact ReadsTo.bind (readsTo_peekSolid (beginsSolid_cons rfl)) readsTo_drop

theorem ReadsMember.bind {k : α → Read β} (h : ReadsMember l r cs a) (hk : ∀ x, ReadsTo (k a) x x b) :
    ReadsMember l (r >>= k) cs b := fun rest hrest => (h rest hrest).bind (hk rest)

theorem readsMember_colon {k : α → Read β} (h : Reads r cs a) (hk : ∀ x, ReadsTo (k a) x x b) :
    ReadsMember l (do colon; k (← r)) cs b :=
  fun rest hrest => readsTo_colon.bind ((h l.afterColon rest l.afterColon_blank hrest).bind (hk rest))

/-- A member that was not met before. -/
theorem readsMember_once (h : Reads r cs a) : ReadsMember l (once none name r) cs (some a) :=
  readsMember_colon h fun _ => .pure

theorem readsTo_hasMember (hgap : IsBlank gap) :
    ReadsTo (hasMember isFirst) ((if isFirst then [] else [',']) ++ (gap ++ '"' :: x)) ('"' :: x) true := by
  have hsolid : BeginsSolid ('"' :: x) := beginsSolid_cons rfl
  cases isFirst with
  | true =>
    rw [if_pos rfl, List.nil_append]
    exact ReadsTo.bind (readsTo_peekPastBlanks hgap hsolid) .pure
  | false =>
    rw [if_neg Bool.false_ne_true, List.cons_append, List.nil_append]
    refine ReadsTo.bind (readsTo_peekSolid (beginsSolid_cons rfl)) ?_
    exact ReadsTo.bind readsTo_drop (ReadsTo.bind (readsTo_peekPastBlanks hgap hsolid) .pure)

theorem readsTo_hasMember_end (hgap : IsBlank gap) :
    ReadsTo (hasMember isFirst) (gap ++ '\x7d' :: x) ('\x7d' :: x) false := by
  exact ReadsTo.bind (readsTo_peekPastBlanks hgap (beginsSolid_cons rfl)) .pure

theorem readsTo_closeObject : ReadsTo closeObject ('\x7d' :: x) x () := by
  exact ReadsTo.bind (readsTo_peekSolid (beginsSolid_cons rfl)) readsTo_drop

theorem readsTo_members (h : MembersTo l depth member d ms e) (hfuel : ms.length < fuel) (hgap : IsBlank gap) :
    ReadsTo (members member fuel isFirst d) (l.items depth isFirst (l.members depth ms) ++ (gap ++ '\x7d' :: rest))
      ('\x7d' :: rest) e := by
  induction h generalizing fuel isFirst with
  | nil =>
    obtain ⟨fuel, rfl⟩ := Nat.exists_eq_succ_of_ne_zero (Nat.ne_zero_of_lt hfuel)
    exact ReadsTo.bind (readsTo_hasMember_end hgap) .pure
  | cons hm _ ih =>
    obtain ⟨fuel, rfl⟩ := Nat.exists_eq_succ_of_ne_zero (Nat.ne_zero_of_lt hfuel)
    have hstop : Stops ('\x7d' :: rest) := stops_cons (by decide)
    simp only [Layout.members, Layout.items, Layout.pair, List.cons_append, List.append_assoc]
    refine ReadsTo.bind (readsTo_hasMember (l.gap_blank depth)) (ReadsTo.bind readsTo_drop ?_)
    refine ReadsTo.bind readsTo_restOfString (ReadsTo.bind (hm _ (stops_items hstop hgap)) ?_)
    exact ih (Nat.lt_of_succ_lt_succ hfuel)

/-- The text is fuel enough for its members. -/
theorem readsTo_object (h : MembersTo l depth member d ms e) (hgap : IsBlank gap) :
    ReadsTo (object d member) (l.items depth true (l.members depth ms) ++ (gap ++ '\x7d' :: rest))
      ('\x7d' :: rest) e := by
  intro c hc
  refine readsTo_members h ?_ hgap c hc
  have hlength : (l.members depth ms).length ≤ (l.items depth true (l.members depth ms)).length := by
    refine length_items fun x hx => ?_
    rw [Layout.members_eq] at hx
    obtain ⟨m, -, rfl⟩ := List.mem_map.1 hx
    nofun
  rw [Layout.members_eq, List.length_map, ← Layout.members_eq] at hlength
  rw [hc, List.length_append]
  omega

/-- An object, up to and with its closing brace. -/
theorem readsTo_braces {finish : σ → Read α} {member : Nat → σ → String → Read σ}
    (h : MembersTo l (depth + 1) (member levels) d ms e) (hfinish : ∀ x, ReadsTo (finish e) x x a)
    (rest : List Char) : ReadsTo (descend (levels + 1) fun inner => do
        let a ← (do finish (← object d (member inner)))
        closeObject
        pure a) (l.write depth (.object ms) ++ rest) rest a := by
  rw [Layout.write, Layout.container_append]
  refine ReadsTo.bind readsTo_drop (ReadsTo.bind (ReadsTo.bind (readsTo_object h isBlank_closing) (hfinish _)) ?_)
  exact readsTo_closeObject.bind .pure

theorem beginsValue_object : BeginsValue (l.write depth (.object ms)) :=
  ⟨_, _, by rw [Layout.write, Layout.container], by decide, by decide⟩

/-- An object, where `null` could stand. -/
theorem reads_orNull_object (h : Reads r (l.write depth (.object ms)) a) :
    Reads (orNull r) (l.write depth (.object ms)) (some a) := by
  rw [Layout.write, Layout.container] at h ⊢
  exact reads_orNull h (by decide) (by decide)

theorem reads_record {expected : String} {finish : σ → Read α} {ofArray : Nat → Read α}
    {member : Nat → σ → String → Read σ} (h : MembersTo l (depth + 1) (member levels) d ms e)
    (hfinish : ∀ x, ReadsTo (finish e) x x a) :
    Reads (record (levels + 1) expected (fun inner => do finish (← object d (member inner))) ofArray)
      (l.write depth (.object ms)) a := by
  intro gap rest hgap hrest
  refine ReadsTo.bind (readsTo_peekPastBlanks hgap beginsValue_object.solid) ?_
  have hhead : (l.write depth (.object ms) ++ rest).head? = some '\x7b' := by
    rw [Layout.write, Layout.container]
    rfl
  rw [hhead]
  exact readsTo_braces h hfinish rest

end

/-! ## Any value -/

/-- A value with whole numbers of 64 bits and at most `levels` containers inside one another. -/
def Fits : Nat → Value → Prop
  | _, .null => True
  | _, .bool _ => True
  | _, .string _ => True
  | _, .number (.nat n) => n ≤ maxUnsigned
  | _, .number (.negative n) => 0 < n ∧ n ≤ Nat.pow 2 63
  | _, .number (.real _ _) => False
  | 0, .array _ => False
  | 0, .object _ => False
  | levels + 1, .array vs => ∀ v ∈ vs, Fits levels v
  | levels + 1, .object ms => ∀ m ∈ ms, Fits levels m.2

section

variable {l : Layout} {depth levels : Nat} {v : Value}

theorem toList_nat (n : Nat) : (toString n).toList = Nat.toDigits 10 n := Nat.toList_repr

theorem isSpace_of_isDigit (h : isDigit c = true) : isSpace c = false := by
  refine Bool.eq_false_iff.2 fun hspace => ?_
  simp only [isSpace, Bool.or_eq_true, beq_iff_eq] at hspace
  rcases hspace with ((rfl | rfl) | rfl) | rfl <;> exact absurd h (by decide)

theorem beginsValue_digits (n : Nat) : BeginsValue (Nat.toDigits 10 n) := by
  obtain ⟨d, ds, hn, hd, -⟩ := digits_cons n
  refine ⟨d, ds, hn, isSpace_of_isDigit hd, ?_⟩
  rintro rfl
  exact absurd hd (by decide)

theorem beginsValue_write (h : Fits levels v) : BeginsValue (l.write depth v) := by
  match v, h with
  | .null, _ => exact ⟨_, _, by rw [Layout.write], by decide, by decide⟩
  | .bool b, _ =>
    rw [Layout.write]
    cases b <;> exact ⟨_, _, rfl, by decide, by decide⟩
  | .string s, _ => exact ⟨_, _, by rw [Layout.write], by decide, by decide⟩
  | .number (.nat n), _ =>
    rw [Layout.write, Number.text, toList_nat]
    exact beginsValue_digits n
  | .number (.negative n), _ =>
    rw [Layout.write, Number.text, String.toList_append]
    exact ⟨'-', _, rfl, by decide, by decide⟩
  | .number (.real _ _), h => simp [Fits] at h
  | .array vs, _ => exact ⟨_, _, by rw [Layout.write, Layout.container], by decide, by decide⟩
  | .object ms, _ => exact beginsValue_object

/-- A digit begins nothing but a number. -/
theorem reads_nat {container : Read Value} {n : Nat} (h : n ≤ maxUnsigned) :
    Reads (scalarOr container) (Nat.toDigits 10 n) (.number (.nat n)) := by
  obtain ⟨d, ds, hn, hd, -⟩ := digits_cons n
  rw [hn]
  refine reads_peek (isSpace_of_isDigit hd) fun rest hrest => ?_
  have hnumber : ReadsTo (number false) (d :: (ds ++ rest)) rest (.nat n) := by
    rw [← List.cons_append, ← hn]
    exact readsTo_number h nofun hrest
  split
  case h_9 he =>
    cases he
    rw [if_pos hd]
    exact hnumber.bind .pure
  case h_1 he => cases he
  all_goals
    next he =>
    cases he
    exact absurd hd (by decide)

theorem reads_negative {container : Read Value} {n : Nat} (hpos : 0 < n) (h : n ≤ Nat.pow 2 63) :
    Reads (scalarOr container) ('-' :: Nat.toDigits 10 n) (.number (.negative n)) := by
  refine reads_peek rfl fun rest hrest => ?_
  have hle : n ≤ maxUnsigned := Nat.le_trans h (by decide)
  have hnumber : ReadsTo (number true) (Nat.toDigits 10 n ++ rest) rest (.negative n) :=
    readsTo_number hle (fun _ => ⟨hpos, h⟩) hrest
  exact readsTo_drop.bind (hnumber.bind .pure)

/-- A value that is read as a scalar or by `container`. -/
theorem reads_scalarOr {container : Read Value} (h : Fits levels v)
    (harray : ∀ vs rest, v = .array vs → ReadsTo container (l.write depth v ++ rest) rest v)
    (hobject : ∀ ms rest, v = .object ms → ReadsTo container (l.write depth v ++ rest) rest v) :
    Reads (scalarOr container) (l.write depth v) v := by
  match v, h with
  | .null, _ | .bool true, _ | .bool false, _ =>
    rw [Layout.write]
    exact reads_peek rfl fun _ _ => readsTo_drop.bind (readsTo_restOfWord.bind .pure)
  | .string s, _ =>
    rw [Layout.write]
    refine reads_peek rfl fun rest _ => ?_
    rw [List.append_assoc]
    exact readsTo_drop.bind (readsTo_restOfString.bind .pure)
  | .number (.nat n), h =>
    rw [Layout.write, Number.text, toList_nat]
    exact reads_nat (by simpa only [Fits] using h)
  | .number (.negative n), h =>
    have hrange : 0 < n ∧ n ≤ Nat.pow 2 63 := by simpa only [Fits] using h
    rw [Layout.write, Number.text, String.toList_append, toList_nat]
    exact reads_negative hrange.1 hrange.2
  | .number (.real _ _), h => simp [Fits] at h
  | .array vs, _ =>
    rw [Layout.write, Layout.container] at harray ⊢
    exact reads_peek rfl fun rest _ => harray vs rest rfl
  | .object ms, _ =>
    rw [Layout.write, Layout.container] at hobject ⊢
    exact reads_peek rfl fun rest _ => hobject ms rest rfl

theorem membersTo_collect {value : Read Value} {ms : List (String × Value)}
    (h : ∀ m ∈ ms, Reads value (l.write depth m.2) m.2) (done : List (String × Value)) :
    MembersTo l depth (fun ms name => do
      colon
      let v ← value
      pure ((name, v) :: ms)) done ms (ms.reverse ++ done) := by
  induction ms generalizing done with
  | nil => exact .nil
  | cons m ms ih =>
    rw [List.forall_mem_cons] at h
    rw [List.reverse_cons, List.append_assoc]
    exact .cons (readsMember_colon h.1 fun _ => .pure) (ih h.2 (m :: done))

/-- What was written is read back. -/
theorem reads_any (h : Fits levels v) : Reads (any levels) (l.write depth v) v := by
  induction levels generalizing v depth with
  | zero =>
    refine reads_scalarOr h (fun vs rest hv => ?_) fun ms rest hv => ?_
    · simp [hv, Fits] at h
    · simp [hv, Fits] at h
  | succ n ih =>
    refine reads_scalarOr h (fun vs rest hv => ?_) fun ms rest hv => ?_
    · subst hv
      simp only [Fits] at h
      have helements (w : Value) (hw : w ∈ vs) :
          Reads (any n) (l.write (depth + 1) w) w ∧ BeginsValue (l.write (depth + 1) w) :=
        ⟨ih (h w hw), beginsValue_write (h w hw)⟩
      rw [Layout.write, Layout.elements_eq, Layout.container_append]
      refine ReadsTo.bind readsTo_next (ReadsTo.bind (readsTo_allElements helements isBlank_closing) ?_)
      exact readsTo_closeList.bind .pure
    · subst hv
      simp only [Fits] at h
      have hmembers : MembersTo l (depth + 1) (fun ms name => do
          colon
          let v ← any n
          pure ((name, v) :: ms)) [] ms (ms.reverse ++ []) := membersTo_collect (fun m hm => ih (h m hm)) []
      rw [Layout.write, Layout.container_append]
      refine ReadsTo.bind readsTo_next (ReadsTo.bind (readsTo_object hmembers isBlank_closing) ?_)
      refine readsTo_closeObject.bind ?_
      rw [List.append_nil, List.reverse_reverse]
      exact .pure

end

/-! ## Whole texts -/

theorem whole_eq {value : Nat → Read α} (h : Reads (value maxLevels) cs a) :
    whole value (String.ofList cs) = .ok a := by
  have hstop : Stops [] := fun _ hc => by cases hc
  have hsolid : BeginsSolid [] := fun _ hc => by cases hc
  obtain ⟨c, hvalue, hc⟩ := h [] [] isBlank_nil hstop (Cursor.ofText (String.ofList cs)) (by simp [Cursor.ofText])
  obtain ⟨c', hend, -⟩ := readsTo_peekSolid hsolid c hc
  exact whole_ok_iff.2 ⟨c, c', hvalue, hend⟩

end LineMatch.Json.Read
