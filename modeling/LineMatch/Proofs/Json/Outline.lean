/-
  LineMatch.Proofs.Json.Outline — the value a record was read from.

  A record is read straight from its text, and a member nobody asked for is skipped with
  less checked than in a value. So there are texts that give a record but no value. The
  outline of a text is its value without the members that are skipped. `Alongside r s R`
  says that where `r` reads, `s` reads the same characters, and that `R` relates what they
  give: the reader of a shape runs alongside that of outlines.

  Proved:
  - `alongside_list`, `alongside_object`, `alongside_record`: containers run alongside when
    what is in them does.
  - `Fields.position`: the fields of a record written as an array are its elements in order.
-/

import Mathlib.Data.List.Forall2
import LineMatch.Proofs.Json.Skipped

namespace LineMatch.Json.Read

variable {α β γ δ σ : Type} {R V : α → β → Prop} {S : γ → δ → Prop} {r : Read α} {s : Read β} {f : α → Read γ}
  {g : β → Read δ} {a : α} {b : β} {c c' d e : Cursor} {o : Option Char} {isFirst : Bool} {levels : Nat}
  {names : List String} {name : String} {inside : Read Value}

/-! ## Outlines -/

/-- A member with one of the names is kept; any other is skipped. -/
def outlineMember (names : List String) (inside : Read Value) (ms : List (String × Value)) (name : String) :
    Read (List (String × Value)) := do
  if names.contains name then do
    colon
    let v ← inside
    pure (ms ++ [(name, v)])
  else do
    skipMember
    pure ms

/-- An array or object, with `inside` for what is in it. -/
def outlineContainer (names : List String) (levels : Nat) (inside : Read Value) : Read Value := do
  match ← peekPastBlanks with
  | some '[' => descend levels fun _ => do
    let vs ← fun c => elements inside (c.rest.length + 1) true c
    closeList
    pure (.array vs)
  | some '{' => descend levels fun _ => do
    let ms ← object [] (outlineMember names inside)
    closeObject
    pure (.object ms)
  | _ => failNext .expectedValue

def outlineAt (names : List String) (levels : Nat) (inside : Read Value) : Read Value :=
  scalarOr (outlineContainer names levels inside)

/-- Any value, without the members that have none of the names. -/
def outline (names : List String) : Nat → Read Value
  | 0 => outlineAt names 0 (failNext .tooDeep)
  | levels + 1 => outlineAt names (levels + 1) (outline names levels)

theorem begins_outlineMember (h : Begins inside) (ms : List (String × Value)) (name : String) :
    Begins (outlineMember names inside ms name) := by
  unfold outlineMember
  split
  · exact (follows_colon.from fun _ _ => Apart.outside).bind fun _ => h.map
  · exact begins_skipMember.map

theorem begins_outlineAt (h : Begins inside) : Begins (outlineAt names levels inside) := by
  refine .scalarOr fun ch hch => Follows.from ?_ fun _ _ => Before.apart
  refine follows_apart.bind fun o => ?_
  split
  · refine (follows_descend rfl fun n _ => ?_).from fun _ _ => Before.outside
    exact h.allElements.bind fun vs => follows_closeList.bind fun _ => .pure fun _ _ => Apart.outside
  · refine (follows_descend rfl fun n _ => ?_).from fun _ _ => Before.outside
    refine (Begins.object (begins_outlineMember h)).bind fun ms => ?_
    exact follows_closeObject.bind fun _ => .pure fun _ _ => Apart.outside
  · exact follows_failNext

theorem begins_outline (levels : Nat) : Begins (outline names levels) := by
  induction levels with
  | zero => exact begins_outlineAt follows_failNext
  | succ levels ih => exact begins_outlineAt ih

/-! ## Two readers side by side -/

/-- What `r` reads from here, `s` reads too, to the same place. -/
def Alongside (r : Read α) (s : Read β) (R : α → β → Prop) (c : Cursor) : Prop :=
  ∀ a c', r c = .ok (a, c') → ∃ b, s c = .ok (b, c') ∧ R a b

theorem Alongside.bind (hr : Alongside r s R c) (hf : ∀ a b d, R a b → Alongside (f a) (g b) S d) :
    Alongside (r >>= f) (s >>= g) S c := by
  intro x c' h
  obtain ⟨a, d, ha, hx⟩ := bind_ok.1 h
  obtain ⟨b, hb, hab⟩ := hr a d ha
  obtain ⟨y, hy, hxy⟩ := hf a b d hab x c' hx
  exact ⟨y, bind_ok.2 ⟨b, d, hb, hy⟩, hxy⟩

theorem Alongside.pure (h : R a b) : Alongside (Pure.pure a) (Pure.pure b) R c := by
  intro a' c' ha
  cases ha
  exact ⟨b, rfl, h⟩

theorem Alongside.mono {R' : α → β → Prop} (h : Alongside r s R c) (hR : ∀ a b, R a b → R' a b) :
    Alongside r s R' c := by
  intro a c' ha
  obtain ⟨b, hb, hab⟩ := h a c' ha
  exact ⟨b, hb, hR a b hab⟩

/-- What reads nothing runs alongside anything. -/
theorem Alongside.never (h : Ensures r fun _ => False) : Alongside r s R c := fun a c' ha => (h c a c' ha).elim

theorem Alongside.same : Alongside r r Eq c := fun a _ ha => ⟨a, ha, rfl⟩

/-- The same step on both sides. -/
theorem Alongside.step {f : α → Read γ} {g : α → Read δ} (h : ∀ a d, Alongside (f a) (g a) S d) :
    Alongside (r >>= f) (r >>= g) S c := by
  refine same.bind fun a b d hab => ?_
  subst hab
  exact h a d

theorem Alongside.map {g : β → δ} {R : α → δ → Prop} (h : Alongside r s (fun a b => R a (g b)) c) :
    Alongside r (do let b ← s; Pure.pure (g b)) R c := by
  intro a c' ha
  obtain ⟨b, hb, hab⟩ := h a c' ha
  exact ⟨g b, bind_ok.2 ⟨b, c', hb, rfl⟩, hab⟩

theorem bind_at (h : r c = .ok (a, d)) : (r >>= f) c = f a d := by
  have hbind : (r >>= f) c = (r c >>= fun x => f x.1 x.2) := rfl
  rw [hbind, h]
  rfl

/-! ## Blanks -/

/-- The blanks before this place are taken. -/
def Peeked (o : Option Char) (c : Cursor) : Prop := peekPastBlanks c = .ok (o, c)

theorem peeked_of_solid (h : BeginsSolid c.rest) : Peeked c.rest.head? c := by
  obtain ⟨rest, line, column⟩ := c
  cases rest with
  | nil => rfl
  | cons ch rest =>
    have hch : isSpace ch = false := h ch rfl
    have htake : takeFrom isSpace ⟨ch :: rest, line, column⟩ (ch :: rest) = ([], ⟨ch :: rest, line, column⟩) := by
      rw [takeFrom, hch]
      rfl
    rw [Peeked, peekPastBlanks, bind_ok]
    exact ⟨_, _, congrArg Except.ok htake, rfl⟩

theorem peeked (h : peekPastBlanks c = .ok (o, d)) : Peeked o d := by
  obtain ⟨e, he, hrest⟩ := peekPastBlanks_eq c
  obtain ⟨rfl, rfl⟩ := Prod.mk.inj (Except.ok.inj (he.symm.trans h))
  rw [← hrest]
  exact peeked_of_solid (hrest ▸ beginsSolid_dropWhile c.rest)

/-- To look again changes nothing. -/
theorem Peeked.again {f : Option Char → Read γ} (h : Peeked o c) : (peekPastBlanks >>= f) c = f o c := bind_at h

/-- Both sides look at what comes next, and may look again after. -/
theorem Alongside.peek {f : Option Char → Read γ} {g : Option Char → Read δ}
    (h : ∀ o d, Peeked o d → Alongside (f o) (g o) S d) : Alongside (peekPastBlanks >>= f) (peekPastBlanks >>= g) S c := by
  intro x c' hx
  obtain ⟨o, d, ho, hx⟩ := bind_ok.1 hx
  obtain ⟨y, hy, hxy⟩ := h o d (peeked ho) x c' hx
  exact ⟨y, bind_ok.2 ⟨o, d, ho, hy⟩, hxy⟩

theorem Alongside.again {g : Option Char → Read δ} {r : Read γ} (h : Peeked o c) (hg : Alongside r (g o) S c) :
    Alongside r (peekPastBlanks >>= g) S c := by
  unfold Alongside
  rw [h.again]
  exact hg

/-! ## Scalars -/

/-- A value that does not matter. -/
def Whatever (_ : α) (_ : β) : Prop := True

theorem alongside_string : Alongside string (outlineAt names levels inside) (fun s v => v = .string s) c := by
  refine .peek fun o d hd => ?_
  split
  · exact .never ensures_failNext
  · exact .step fun _ _ => .map (Alongside.same.mono fun _ _ h => congrArg Value.string h.symm)
  · exact .never ensures_mismatch

theorem alongside_bool : Alongside bool (outlineAt names levels inside) Whatever c := by
  refine .peek fun o d hd => ?_
  split
  · exact .never ensures_failNext
  · exact .step fun _ _ => .step fun _ _ => .pure trivial
  · exact .step fun _ _ => .step fun _ _ => .pure trivial
  · exact .never ensures_mismatch

theorem alongside_orNull {V : α → Value → Prop} (h : ∀ c, Alongside r (outlineAt names levels inside) V c) :
    Alongside (orNull r) (outlineAt names levels inside) Whatever c := by
  refine .peek fun o d hd => ?_
  split
  · exact .step fun _ _ => .step fun _ _ => .pure trivial
  · intro x c' hx
    obtain ⟨a, e, ha, hx⟩ := bind_ok.1 hx
    cases hx
    obtain ⟨v, hv, -⟩ := h d a c' ha
    exact ⟨v, hd.again.symm.trans hv, trivial⟩

/-! ## Containers -/

theorem alongside_elements {element : Read α} {K : α → Value → Prop} (h : ∀ c, Alongside element inside K c)
    (fuel : Nat) (isFirst : Bool) :
    Alongside (elements element fuel isFirst) (elements inside fuel isFirst) (List.Forall₂ K) c := by
  induction fuel generalizing isFirst c with
  | zero => exact .never ensures_failNext
  | succ fuel ih =>
    refine .step fun more d => ?_
    cases more with
    | true => exact (h d).bind fun a v e hav => (ih false).bind fun as vs _ hs => .pure (.cons hav hs)
    | false => exact .pure .nil

/-- A container that both sides open. -/
theorem alongside_descend {content : Nat → Read γ} {content' : Nat → Read δ}
    (h : ∀ n d, levels = n + 1 → Alongside (content n) (content' n) S d) :
    Alongside (descend levels content) (descend levels content') S c := by
  unfold descend
  split
  · exact .never ensures_failNext
  · exact .step fun _ d => h _ d rfl

/-- A list that is read, and the array it was read from. -/
def Listed (K : α → Value → Prop) (as : List α) (v : Value) : Prop := ∃ vs, v = .array vs ∧ List.Forall₂ K as vs

theorem alongside_list {element : Nat → Read α} {K : α → Value → Prop} (h : ∀ n c, Alongside (element n) inside K c) :
    Alongside (list levels element) (outlineAt names levels inside) (Listed K) c := by
  refine .peek fun o d hd => ?_
  split
  · exact .never ensures_failNext
  · refine .again hd (alongside_descend fun n e _ => ?_)
    have helements : Alongside (fun c => elements (element n) (c.rest.length + 1) true c)
        (fun c => elements inside (c.rest.length + 1) true c) (List.Forall₂ K) e := alongside_elements (h n) _ true
    exact helements.bind fun as vs _ hs => .step fun _ _ => .pure ⟨vs, rfl, hs⟩
  · exact .never ensures_mismatch

theorem alongside_members {member : σ → String → Read σ} {I : σ → List (String × Value) → Prop}
    (h : ∀ x ms name c, I x ms → Alongside (member x name) (outlineMember names inside ms name) I c)
    (fuel : Nat) (isFirst : Bool) {x : σ} {ms : List (String × Value)} (hI : I x ms) :
    Alongside (members member fuel isFirst x) (members (outlineMember names inside) fuel isFirst ms) I c := by
  induction fuel generalizing isFirst x ms c with
  | zero => exact .never ensures_failNext
  | succ fuel ih =>
    refine .step fun more d => ?_
    cases more with
    | true => exact .step fun _ _ => .step fun name _ => (h x ms name _ hI).bind fun _ _ _ hI' => ih false hI'
    | false => exact .pure hI

theorem alongside_object {empty : σ} {member : σ → String → Read σ} {I : σ → List (String × Value) → Prop}
    (h : ∀ x ms name c, I x ms → Alongside (member x name) (outlineMember names inside ms name) I c)
    (hempty : I empty []) : Alongside (object empty member) (object [] (outlineMember names inside)) I c :=
  alongside_members h _ true hempty

/-! ## One of several names -/

theorem stringAs_ok {expected text : String} (h : stringAs expected c = .ok (text, c')) : ∃ d e,
    peekPastBlanks c = .ok (some '"', d) ∧ drop d = .ok ((), e) ∧ restOfString e = .ok (text, c') := by
  obtain ⟨o, d, ho, h⟩ := bind_ok.1 h
  split at h
  · cases h
  · obtain ⟨_, e, hdrop, h⟩ := bind_ok.1 h
    exact ⟨d, e, ho, hdrop, h⟩
  · exact (ensures_mismatch (P := fun _ => False) _ _ _ h).elim

theorem variantNamed_ok {known : List (String × α)} {listed : List String}
    (h : variantNamed known listed c = .ok (a, c')) : ∃ name d e, known.lookup name = some a ∧
      peekPastBlanks c = .ok (some '"', d) ∧ drop d = .ok ((), e) ∧ restOfString e = .ok (name, c') := by
  obtain ⟨name, c1, hname, h⟩ := bind_ok.1 h
  obtain ⟨d, e, hquote, hdrop, hrest⟩ := stringAs_ok hname
  rcases hlookup : known.lookup name with _ | b
  · rw [hlookup] at h
    cases h
  · rw [hlookup] at h
    cases h
    exact ⟨name, d, e, hlookup, hquote, hdrop, hrest⟩

theorem alongside_opened : Alongside null opened (fun _ b => b = none) c := by
  refine .peek fun o d hd => ?_
  split
  · exact .never ensures_failNext
  · exact .step fun _ _ => .map (Alongside.same.mono fun _ _ _ => rfl)
  · exact .never ensures_mismatch

/-- A `null` is skipped as it is read. -/
theorem skip_null {u : Unit} (h : null c = .ok (u, c')) : skip c = .ok ((), c') := by
  obtain ⟨b, hopened, rfl⟩ := alongside_opened u c' h
  exact bind_ok.2 ⟨none, c', hopened, rfl⟩

/-- An object with one member, which is skipped. -/
theorem outlined_skipped (hinside : Begins inside) (hname : names.contains name = false) {c1 c2 c3 c4 c5 : Cursor}
    (hquote : peekPastBlanks c = .ok (some '"', c1)) (hdrop : drop c1 = .ok ((), c2))
    (hrest : restOfString c2 = .ok (name, c3)) (hskip : skipMember c3 = .ok ((), c4))
    (hend : peekPastBlanks c4 = .ok (some '\x7d', c5)) :
    object [] (outlineMember names inside) c = .ok ([], c5) := by
  have hmore : hasMember true c = .ok (true, c1) := bind_ok.2 ⟨_, c1, hquote, rfl⟩
  have hlast : hasMember false c4 = .ok (false, c5) := bind_ok.2 ⟨_, c5, hend, rfl⟩
  have hmember : outlineMember names inside [] name c3 = .ok ([], c4) := by
    rw [outlineMember, hname]
    exact bind_ok.2 ⟨(), c4, hskip, rfl⟩
  have htwo : members (outlineMember names inside) 2 true [] c = .ok ([], c5) := by
    refine bind_ok.2 ⟨true, c1, hmore, bind_ok.2 ⟨(), c2, hdrop, bind_ok.2 ⟨name, c3, hrest, ?_⟩⟩⟩
    exact bind_ok.2 ⟨[], c4, hmember, bind_ok.2 ⟨false, c5, hlast, rfl⟩⟩
  exact members_count (fun ms name => (begins_outlineMember hinside ms name).consumes) htwo (Nat.lt_succ_self _)

/-- A name is no member of an outline when it stands for a value as the only member of an
    object. -/
theorem alongside_variant {known : List (String × α)} {listed : List String} (hinside : Begins inside)
    (hnames : ∀ name a, known.lookup name = some a → names.contains name = false) :
    Alongside (variant levels known listed) (outlineAt names levels inside) Whatever c := by
  refine .peek fun o d hd => ?_
  split
  · refine .again hd (alongside_descend fun n d1 _ => ?_)
    intro x c' hx
    obtain ⟨a, e1, hname, hx⟩ := bind_ok.1 hx
    obtain ⟨_, e2, hcolon, hx⟩ := bind_ok.1 hx
    obtain ⟨_, e3, hnull, hx⟩ := bind_ok.1 hx
    obtain ⟨o', e4, ho', hx⟩ := bind_ok.1 hx
    split at hx
    · obtain ⟨_, e5, hbrace, hx⟩ := bind_ok.1 hx
      cases hx
      obtain ⟨name, d2, d3, hlookup, hquote, hdrop, hrest⟩ := variantNamed_ok hname
      have hskip : skipMember e1 = .ok ((), e3) := bind_ok.2 ⟨_, e2, hcolon, skip_null hnull⟩
      have hobject := outlined_skipped hinside (hnames name x hlookup) hquote hdrop hrest hskip ho'
      have hclose : closeObject e4 = .ok ((), c') := bind_ok.2 ⟨_, e4, peeked ho', hbrace⟩
      exact ⟨.object [], bind_ok.2 ⟨[], e4, hobject, bind_ok.2 ⟨(), c', hclose, rfl⟩⟩, trivial⟩
    · cases hx
    · cases hx
  · intro x c' hx
    obtain ⟨name, d1, d2, -, hquote, hdrop, hrest⟩ := variantNamed_ok hx
    obtain ⟨-, rfl⟩ := Prod.mk.inj (Except.ok.inj (hd.symm.trans hquote))
    exact ⟨.string name, bind_ok.2 ⟨(), d2, hdrop, bind_ok.2 ⟨name, c', hrest, rfl⟩⟩, trivial⟩
  · exact .never ensures_failNext
  · exact .never ensures_failNext

theorem once_ok {known o : Option α} (h : once known name r c = .ok (o, c')) :
    known = none ∧ ∃ d a, colon c = .ok ((), d) ∧ r d = .ok (a, c') ∧ o = some a := by
  unfold once at h
  split at h
  · cases h
  · next hknown =>
    obtain ⟨_, d, hcolon, h⟩ := bind_ok.1 h
    obtain ⟨a, e, ha, h⟩ := bind_ok.1 h
    cases h
    exact ⟨by simpa using hknown, d, a, hcolon, ha, rfl⟩

theorem required_ok {known : Option α} (h : required known name c = .ok (a, c')) : known = some a ∧ c' = c := by
  unfold required at h
  split at h
  · cases h
    exact ⟨rfl, rfl⟩
  · cases h

/-- A member that occurs once, and goes behind those before it. -/
theorem alongside_once {known : Option α} {V : α → Value → Prop} {I : σ → List (String × Value) → Prop}
    {draft : Option α → σ} {ms : List (String × Value)} (hname : names.contains name = true)
    (hr : ∀ c, Alongside r inside V c)
    (h : ∀ a v, known = none → V a v → I (draft (some a)) (ms ++ [(name, v)])) :
    Alongside (do let o ← once known name r; Pure.pure (draft o)) (outlineMember names inside ms name) I c := by
  intro x c' hx
  obtain ⟨o, d, ho, hx⟩ := bind_ok.1 hx
  cases hx
  obtain ⟨hknown, d1, a, hcolon, ha, rfl⟩ := once_ok ho
  obtain ⟨v, hv, hav⟩ := hr d1 a c' ha
  refine ⟨ms ++ [(name, v)], ?_, h a v hknown hav⟩
  rw [outlineMember, hname]
  exact bind_ok.2 ⟨(), d1, hcolon, bind_ok.2 ⟨v, c', hv, rfl⟩⟩

/-! ## Fields -/

/-- The elements from here on are these. -/
def Row (inside : Read Value) (isFirst : Bool) (c c' : Cursor) (vs : List Value) : Prop :=
  ∃ fuel, elements inside fuel isFirst c = .ok (vs, c')

theorem Row.nil (h : hasElement isFirst c = .ok (false, c')) : Row inside isFirst c c' [] :=
  ⟨1, bind_ok.2 ⟨false, c', h, rfl⟩⟩

theorem Row.cons {v : Value} {vs : List Value} (h : hasElement isFirst c = .ok (true, d))
    (hv : inside d = .ok (v, e)) (hvs : Row inside false e c' vs) : Row inside isFirst c c' (v :: vs) := by
  obtain ⟨fuel, hvs⟩ := hvs
  exact ⟨fuel + 1, bind_ok.2 ⟨true, d, h, bind_ok.2 ⟨v, e, hv, bind_ok.2 ⟨vs, c', hvs, rfl⟩⟩⟩⟩

theorem hasElement_ended (h : hasElement isFirst c = .ok (false, d)) : Peeked (some ']') d := by
  obtain ⟨o, e, ho, h⟩ := bind_ok.1 h
  split at h
  · cases h
  · cases h
    exact peeked ho
  · split at h
    · cases h
    split at h
    · obtain ⟨_, e1, -, h⟩ := bind_ok.1 h
      obtain ⟨o', e2, -, h⟩ := bind_ok.1 h
      split at h <;> cases h
    · cases h

theorem Row.eq_nil {vs : List Value} (h : Peeked (some ']') c) (hvs : Row inside false c c' vs) : vs = [] ∧ c' = c := by
  obtain ⟨fuel, hvs⟩ := hvs
  cases fuel with
  | zero => cases hvs
  | succ fuel =>
    have hended : hasElement false c = .ok (false, c) := h.again
    have hnil : elements inside (fuel + 1) false c = .ok ([], c) := bind_ok.2 ⟨false, c, hended, rfl⟩
    obtain ⟨rfl, rfl⟩ := Prod.mk.inj (Except.ok.inj (hvs.symm.trans hnil))
    exact ⟨rfl, rfl⟩

/-- What `r` reads of an array stands in relation to all its elements from there on, whatever
    the elements are that `r` leaves. -/
def Fields (inside : Read Value) (isFirst : Bool) (r : Read α) (R : α → List Value → Prop) : Prop :=
  ∀ c a d c' vs, r c = .ok (a, d) → Row inside false d c' vs → ∃ us, Row inside isFirst c c' us ∧ R a us

theorem Fields.pure {R : α → List Value → Prop} (h : ∀ vs, R a vs) : Fields inside false (Pure.pure a) R := by
  intro c b d c' vs hb hvs
  cases hb
  exact ⟨vs, hvs, h vs⟩

theorem Fields.never {R : α → List Value → Prop} (h : Ensures r fun _ => False) : Fields inside isFirst r R :=
  fun c a d _ _ ha _ => (h c a d ha).elim

theorem Fields.position {V : α → Value → Prop} {R : γ → List Value → Prop} {f : Option α → Read γ}
    (hr : ∀ c, Alongside r inside V c)
    (hf : ∀ o, Fields inside false (f o) fun x vs => ∀ us, us.tail = vs → Option.Rel V o us.head? → R x us) :
    Fields inside isFirst (position isFirst r >>= f) R := by
  intro c x d c' vs hx hvs
  obtain ⟨o, e, ho, hx⟩ := bind_ok.1 hx
  obtain ⟨ws, hws, hR⟩ := hf o e x d c' vs hx hvs
  obtain ⟨more, e1, hmore, ho⟩ := bind_ok.1 ho
  cases more with
  | true =>
    obtain ⟨a, e2, ha, ho⟩ := bind_ok.1 ho
    cases ho
    obtain ⟨v, hv, hav⟩ := hr e1 a e ha
    exact ⟨v :: ws, .cons hmore hv hws, hR (v :: ws) rfl (.some hav)⟩
  | false =>
    cases ho
    obtain ⟨rfl, rfl⟩ := Row.eq_nil (hasElement_ended hmore) hws
    exact ⟨[], .nil hmore, hR [] rfl .none⟩

/-- The fields that were read are all the elements. -/
theorem Fields.alongside {R : α → List Value → Prop} (hinside : Begins inside) (h : Fields inside true r R) :
    Alongside (do let a ← r; closeList; Pure.pure a)
      (do
        let vs ← fun c => elements inside (c.rest.length + 1) true c
        closeList
        Pure.pure (Value.array vs)) (fun a v => ∃ vs, v = .array vs ∧ R a vs) c := by
  intro x c' hx
  obtain ⟨a, d, ha, hx⟩ := bind_ok.1 hx
  obtain ⟨_, e, hclose, hx⟩ := bind_ok.1 hx
  cases hx
  obtain ⟨o, d1, ho, hclose⟩ := bind_ok.1 hclose
  split at hclose
  · have hended : hasElement false d = .ok (false, d1) := bind_ok.2 ⟨_, d1, ho, rfl⟩
    have hclose' : closeList d1 = .ok ((), c') := bind_ok.2 ⟨_, d1, peeked ho, hclose⟩
    obtain ⟨us, ⟨fuel, hus⟩, hR⟩ := h c x d d1 [] ha (.nil hended)
    have hall : elements inside (c.rest.length + 1) true c = .ok (us, d1) :=
      elements_count hinside.consumes hus (Nat.le_refl _)
    exact ⟨.array us, bind_ok.2 ⟨us, d1, hall, bind_ok.2 ⟨(), c', hclose', rfl⟩⟩, us, rfl, hR⟩
  · obtain ⟨_, e1, -, hclose⟩ := bind_ok.1 hclose
    obtain ⟨o', e2, -, hclose⟩ := bind_ok.1 hclose
    split at hclose <;> cases hclose
  · cases hclose
  · cases hclose

theorem alongside_record {expected : String} {ofObject ofArray : Nat → Read α} {R : α → Value → Prop}
    (hinside : Begins inside)
    (hobject : ∀ n c, levels = n + 1 →
      Alongside (ofObject n) (object [] (outlineMember names inside)) (fun a ms => R a (.object ms)) c)
    (harray : ∀ n, levels = n + 1 → Fields inside true (ofArray n) fun a vs => R a (.array vs)) :
    Alongside (record levels expected ofObject ofArray) (outlineAt names levels inside) R c := by
  refine .peek fun o d hd => ?_
  split
  · exact .never ensures_failNext
  · refine .again hd (alongside_descend fun n e hn => ?_)
    refine ((harray n hn).alongside hinside).mono ?_
    rintro a v ⟨vs, rfl, hR⟩
    exact hR
  · refine .again hd (alongside_descend fun n e hn => ?_)
    exact (hobject n e hn).bind fun a ms _ hR => .step fun _ _ => .pure hR
  · exact .never ensures_mismatch

end LineMatch.Json.Read
