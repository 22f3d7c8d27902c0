/-
  LineMatch.Proofs.Json.Skipped — skipping values, and blanks.

  A value nobody asked for is skipped round by round: what it begins with (`opened`), then
  the brackets that close, then perhaps the name of the next member.

  Proved:
  - `closeBrackets_count`, `skipFrom_count`: the text is count enough of the rounds.
  - `begins_skip`: skipping does not depend on blanks.
-/

import LineMatch.Proofs.Json.Begins

namespace LineMatch.Json.Read

variable {c d : Cursor} {m n fuel : Nat} {b : Option Bracket}

/-! ## Skipped values -/

theorem follows_skipKey : Follows Apart skipKey fun _ => Apart := by
  refine follows_apart.bind fun o => ?_
  dsimp only
  split
  · refine (follows_quote.from fun _ _ => Before.outside).bind fun _ => follows_skipString.bind fun _ => ?_
    exact follows_colon.from fun _ _ => Apart.outside
  · exact follows_failNext.bind fun _ => follows_skipString.bind fun _ => follows_colon.from fun _ _ => Apart.outside
  · exact follows_failNext.bind fun _ => follows_skipString.bind fun _ => follows_colon.from fun _ _ => Apart.outside

/-- Inside containers the next value begins, outside of them nothing is left to skip. -/
def AfterClosing (bs : List Bracket) : Where := AtValue (!bs.isEmpty)

theorem follows_closeBrackets (fuel : Nat) (mayComma : Bool) (bs : List Bracket) :
    Follows (AtValue (!mayComma)) (closeBrackets fuel mayComma bs) AfterClosing := by
  induction fuel generalizing mayComma bs with
  | zero => exact follows_failNext
  | succ fuel ih =>
    cases bs with
    | nil => exact .pure fun _ _ => AtValue.outside
    | cons b bs =>
      have hclose {ch : Char} (h : ch = ']' ∧ b = .list ∨ ch = '\x7d' ∧ b = .object) :
          Follows (Before (fun s => s.isOutside = true) (some ch)) (do drop; closeBrackets fuel true bs) AfterClosing := by
        have hch : isMark ch = true := by rcases h with ⟨rfl, -⟩ | ⟨rfl, -⟩ <;> rfl
        exact (follows_mark hch).bind fun _ => (ih true bs).from fun _ _ => Apart.outside
      cases mayComma with
      | true =>
        refine follows_blanks.bind fun o => ?_
        split
        · exact follows_failNext
        split
        · next h =>
          rw [h.1]
          exact (follows_mark rfl).bind fun _ => .pure fun _ _ => id
        split
        · next h => exact hclose h
        · exact follows_failNext
      | false =>
        refine follows_apart.bind fun o => ?_
        split
        · exact follows_failNext
        split
        · next h => cases h.2
        split
        · next h => exact (hclose h).from fun _ _ => Before.outside
        · exact .pure fun _ _ => Before.apart

/-- The beginning of a skipped value: all of it, or the bracket of a container. -/
def opened : Read (Option Bracket) := do
  match ← peekPastBlanks with
  | none => failNext .endInValue
  | some 'n' => drop; restOfWord ['u', 'l', 'l']; pure none
  | some 't' => drop; restOfWord ['r', 'u', 'e']; pure none
  | some 'f' => drop; restOfWord ['a', 'l', 's', 'e']; pure none
  | some '-' => drop; skipNumber; pure none
  | some '"' => drop; skipString; pure none
  | some '[' => drop; pure (some Bracket.list)
  | some '{' => drop; pure (some Bracket.object)
  | some c => if LineMatch.Number.isDigit c then do skipNumber; pure none else failNext .expectedValue

/-- What is skipped after it. -/
def afterOpened (fuel : Nat) (bs : List Bracket) (o : Option Bracket) : Read Unit := do
  match ← closeBrackets (fuel + 1) o.isNone (match o with
    | some b => b :: bs
    | none => bs) with
  | [] => pure ()
  | b :: bs => do
    if b = .object then skipKey
    skipFrom fuel (b :: bs)

theorem skipFrom_eq (fuel : Nat) (bs : List Bracket) : skipFrom (fuel + 1) bs = opened >>= afterOpened fuel bs := rfl

theorem follows_opened : Follows Apart opened fun o => AtValue o.isSome := by
  have hnone : Follows InWord (pure none : Read (Option Bracket)) fun o => AtValue o.isSome :=
    .pure fun _ _ => InWord.outside
  refine follows_apart.bind fun o => ?_
  split
  · exact follows_failNext
  · exact follows_word rfl hnone
  · exact follows_word rfl hnone
  · exact follows_word rfl hnone
  · refine (follows_dropWord (.inl rfl) rfl).bind fun _ => ?_
    exact (follows_skipNumber.from fun _ _ => .inl).bind fun _ => hnone
  · refine (follows_quote.from fun _ _ => Before.outside).bind fun _ => ?_
    exact follows_skipString.bind fun _ => .pure fun _ _ => Apart.outside
  · exact ((follows_mark rfl).from fun _ _ => Before.outside).bind fun _ => .pure fun _ _ => id
  · exact ((follows_mark rfl).from fun _ _ => Before.outside).bind fun _ => .pure fun _ _ => id
  · split
    · exact (follows_skipNumber.from fun _ _ h => .inr ⟨h.1, h.2.2⟩).bind fun _ => hnone
    · exact follows_failNext

theorem follows_afterOpened {o : Option Bracket} {bs : List Bracket}
    (h : ∀ bs, Follows Apart (skipFrom fuel bs) fun _ => Outside) :
    Follows (AtValue o.isSome) (afterOpened fuel bs o) fun _ => Outside := by
  have hclose := follows_closeBrackets (fuel + 1) o.isNone (match o with
    | some b => b :: bs
    | none => bs)
  rw [Option.not_isNone] at hclose
  refine hclose.bind fun left => ?_
  split
  · exact .pure fun _ _ => id
  · dsimp only
    split
    · exact follows_skipKey.bind fun _ => h _
    · exact h _

theorem follows_skipFrom (fuel : Nat) (bs : List Bracket) : Follows Apart (skipFrom fuel bs) fun _ => Outside := by
  induction fuel generalizing bs with
  | zero => exact follows_failNext
  | succ fuel ih =>
    rw [skipFrom_eq]
    exact follows_opened.bind fun o => follows_afterOpened ih

/-- A value takes a character at least. -/
theorem opened_ok (h : opened c = .ok (b, d)) : d.rest.length < c.rest.length := by
  have hnone {x : Option Bracket} : Follows InWord (pure x) fun _ => Outside := follows_outside
  obtain ⟨o, e, ho, h⟩ := bind_ok.1 h
  obtain ⟨hhead, hle⟩ := peekPastBlanks_ok ho
  have hdrop {r : Read (Option Bracket)} {ch : Char} (hr : Consumes r) (hhead : e.rest.head? = some ch)
      (h : (do drop; r) e = .ok (b, d)) : d.rest.length < c.rest.length := by
    obtain ⟨_, e', hdrop, h⟩ := bind_ok.1 h
    have h1 := drop_ok hdrop hhead
    have h2 := hr _ _ _ h
    omega
  have hword {ws : List Char} (hws : ws.all isWordChar = true) {x : Option Bracket} :
      Consumes (do restOfWord ws; pure x) :=
    Follows.consumes (s := .inWord) ((follows_restOfWord hws).bind fun _ => follows_outside) fun _ => rfl
  split at h
  · cases h
  · exact hdrop (hword rfl) hhead h
  · exact hdrop (hword rfl) hhead h
  · exact hdrop (hword rfl) hhead h
  · have hnumber : Consumes (do skipNumber; pure (none : Option Bracket)) :=
      Follows.consumes (s := .inWord) (follows_skipNumber.bind fun _ => follows_outside) fun _ => .inl rfl
    exact hdrop hnumber hhead h
  · have hstring : Consumes (do skipString; pure (none : Option Bracket)) :=
      Follows.consumes (s := .string) (follows_skipString.map) fun _ => rfl
    exact hdrop hstring hhead h
  · exact hdrop (fun _ _ _ h => by cases h; exact Nat.le_refl _) hhead h
  · exact hdrop (fun _ _ _ h => by cases h; exact Nat.le_refl _) hhead h
  · split at h
    · next hdigit =>
      obtain ⟨_, e', hnumber, h⟩ := bind_ok.1 h
      cases h
      have hsolid : BeginsSolid e.rest := by
        intro ch hch
        obtain rfl := Option.some.inj (hhead.symm.trans hch)
        exact isSpace_of_isWordChar (isWordChar_of_isDigit hdigit)
      obtain ⟨s', hpath, rfl, -⟩ := follows_skipNumber .apart e _ _ (.inr ⟨rfl, hsolid⟩) hnumber
      have hlt := hpath.length_lt (by decide)
      omega
    · cases h

theorem closeBrackets_count {mayComma : Bool} {bs left : List Bracket}
    (h : closeBrackets m mayComma bs c = .ok (left, d)) (hn : c.rest.length < n) :
    closeBrackets n mayComma bs c = .ok (left, d) := by
  induction m generalizing n mayComma bs c with
  | zero => cases h
  | succ m ih =>
    cases n with
    | zero => omega
    | succ n =>
      cases bs with
      | nil => exact h
      | cons b bs =>
        obtain ⟨o, e, ho, h⟩ := bind_ok.1 h
        obtain ⟨hhead, hle⟩ := peekPastBlanks_ok ho
        refine bind_ok.2 ⟨o, e, ho, ?_⟩
        split at h
        · cases h
        split at h
        · next hcomma =>
          rw [if_pos hcomma]
          exact h
        split at h
        · next hcomma hclose =>
          obtain ⟨_, e', hdrop, hread⟩ := bind_ok.1 h
          have hrest := drop_ok hdrop hhead
          rw [if_neg hcomma, if_pos hclose]
          exact bind_ok.2 ⟨_, e', hdrop, ih hread (by omega)⟩
        · next hcomma hclose =>
          rw [if_neg hcomma, if_neg hclose]
          exact h

theorem skipFrom_count {bs : List Bracket} {u : Unit} (h : skipFrom m bs c = .ok (u, d)) (hn : c.rest.length < n) :
    skipFrom n bs c = .ok (u, d) := by
  induction m generalizing n bs c with
  | zero => cases h
  | succ m ih =>
    cases n with
    | zero => omega
    | succ n =>
      rw [skipFrom_eq] at h ⊢
      obtain ⟨o, e, hopen, h⟩ := bind_ok.1 h
      obtain ⟨left, e', hclose, h⟩ := bind_ok.1 h
      have hlt := opened_ok hopen
      have hle := (follows_closeBrackets _ _ _).consumes (s := .apart) (fun _ => AtValue.apart) _ _ _ hclose
      refine bind_ok.2 ⟨o, e, hopen, bind_ok.2 ⟨left, e', closeBrackets_count hclose (by omega), ?_⟩⟩
      split at h
      · exact h
      · dsimp only at h ⊢
        split at h
        · next hb =>
          obtain ⟨_, e'', hkey, h⟩ := bind_ok.1 h
          have hle' := follows_skipKey.consumes (s := .apart) (fun _ => rfl) _ _ _ hkey
          rw [if_pos hb]
          exact bind_ok.2 ⟨_, e'', hkey, ih h (by omega)⟩
        · next hb =>
          rw [if_neg hb]
          exact ih h (by omega)

theorem begins_skip : Begins skip :=
  .counted (fun n => follows_skipFrom n []) fun _ _ _ hread => skipFrom_count hread (Nat.lt_succ_self _)

theorem begins_skipMember : Begins skipMember :=
  (follows_colon.from fun _ _ => Apart.outside).bind fun _ => begins_skip

end LineMatch.Json.Read
