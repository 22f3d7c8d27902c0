/-
  LineMatch.Proofs.Comments — stripping comments keeps what holds none.

  A text is kept if stripping comments passes over it and stands outside strings again
  after it. Texts that are kept can be put together.

  Proved:
  - `strip_escapedText`: an escaped string is passed over, whatever its characters.
  - `isNumeral_number`: numbers are written without what begins a comment or a string.
  - `strip_written`: a written value is kept, in every layout.
-/

import LineMatch.Comments
import LineMatch.Proofs.Json.Layout

namespace LineMatch.Json

/-! ## Texts that are kept -/

section

open Comments

variable {cs ds : List Char} {c : Char}

/-- Stripping comments keeps `cs`, wherever it stands outside strings. -/
def Kept (cs : List Char) : Prop := ∀ rest, stripFrom .text (cs ++ rest) = cs ++ stripFrom .text rest

theorem Kept.nil : Kept [] := fun _ => rfl

theorem Kept.append (h : Kept cs) (h' : Kept ds) : Kept (cs ++ ds) := by
  intro rest
  rw [List.append_assoc, h, h', List.append_assoc]

theorem Kept.cons (hslash : c ≠ '/') (hquote : c ≠ '"') (h : Kept cs) : Kept (c :: cs) := by
  intro rest
  rw [List.cons_append, stripFrom, if_neg hquote, h, List.cons_append]
  · intro _ hc
    exact absurd hc hslash
  · intro _ hc
    exact absurd hc hslash

theorem Kept.of_forall (h : ∀ c ∈ cs, c ≠ '/' ∧ c ≠ '"') : Kept cs := by
  induction cs with
  | nil => exact .nil
  | cons c cs ih =>
    rw [List.forall_mem_cons] at h
    exact .cons h.1.1 h.1.2 (ih h.2)

theorem strip_escaped {c : Char} (h : Escaped c cs) (rest : List Char) :
    stripFrom .string (cs ++ rest) = cs ++ stripFrom .string rest := by
  cases h with
  | letter d => simp [stripFrom]
  | hex h =>
    have hdigit : ∀ n < 0x20, (n / 16).digitChar ≠ '"' ∧ (n / 16).digitChar ≠ '\\' ∧
        (n % 16).digitChar ≠ '"' ∧ (n % 16).digitChar ≠ '\\' := by decide
    obtain ⟨h1, h2, h3, h4⟩ := hdigit _ h
    simp [stripFrom, h1, h2, h3, h4]
  | plain hquote hbackslash => simp [stripFrom, hquote, hbackslash]

theorem strip_escapedText (s : String) (rest : List Char) :
    stripFrom .string (escapedText s ++ rest) = escapedText s ++ stripFrom .string rest := by
  rw [escapedText]
  induction s.toList with
  | nil => rfl
  | cons c cs ih => rw [List.flatMap_cons, List.append_assoc, strip_escaped (escaped_escapeChar c), ih,
      List.append_assoc]

theorem Kept.string (s : String) : Kept ('"' :: (escapedText s ++ ['"'])) := by
  intro rest
  have hopen (cs : List Char) : stripFrom .text ('"' :: cs) = '"' :: stripFrom .string cs := by
    rw [stripFrom] <;> simp
  have hclose : stripFrom .string ('"' :: rest) = '"' :: stripFrom .text rest := by
    rw [stripFrom]
    rfl
  rw [List.cons_append, hopen, List.append_assoc, strip_escapedText, List.singleton_append, hclose,
    List.cons_append, List.append_assoc, List.singleton_append]

theorem Kept.blank (h : IsBlank cs) : Kept cs := by
  refine .of_forall fun c hc => ⟨?_, ?_⟩ <;> rintro rfl <;> exact absurd (h _ hc) (by decide)

theorem Kept.ite {p : Prop} [Decidable p] (h : Kept cs) (h' : Kept ds) : Kept (if p then cs else ds) := by
  split
  · exact h
  · exact h'

end

/-! ## Numerals -/

section

variable {s t : String}

/-- A text of the characters that numbers are written with. -/
def IsNumeral (s : String) : Prop := ∀ c ∈ s.toList, c.isDigit = true ∨ c = '.' ∨ c = 'e' ∨ c = '-'

theorem IsNumeral.append (hs : IsNumeral s) (ht : IsNumeral t) : IsNumeral (s ++ t) := by
  intro c hc
  rw [String.toList_append, List.mem_append] at hc
  exact hc.elim (hs c) (ht c)

theorem isNumeral_nat (n : Nat) : IsNumeral (toString n) := by
  intro c hc
  have hlist : (toString n).toList = Nat.toDigits 10 n := Nat.toList_repr
  rw [hlist] at hc
  exact .inl (Nat.isDigit_of_mem_toDigits (by decide) (by decide) hc)

theorem IsNumeral.ofList {cs : List Char} (hs : IsNumeral s) (h : ∀ c ∈ cs, c ∈ s.toList) :
    IsNumeral (String.ofList cs) := by
  intro c hc
  rw [String.toList_ofList] at hc
  exact hs c (h c hc)

theorem isNumeral_zeros (n : Nat) : IsNumeral (Number.Binary64.zeros n) :=
  IsNumeral.ofList (isNumeral_nat 0) fun c hc => by
    rw [(List.mem_replicate.1 hc).2]
    decide

theorem isNumeral_int (i : Int) : IsNumeral (toString i) := by
  have hminus : IsNumeral "-" := by simp [IsNumeral]
  cases i with
  | ofNat n => exact isNumeral_nat n
  | negSucc n => exact hminus.append (isNumeral_nat (n + 1))

theorem isNumeral_real (x : Number.Binary64) : IsNumeral x.text := by
  have hempty : IsNumeral "" := nofun
  have hpoint : IsNumeral "." := by simp [IsNumeral]
  have hexponent : IsNumeral "e" := by simp [IsNumeral]
  have hzero : IsNumeral "0.0" := by simp [IsNumeral]
  have hwhole : IsNumeral ".0" := by simp [IsNumeral]
  have hfraction : IsNumeral "0." := by simp [IsNumeral]
  unfold Number.Binary64.text
  split
  · exact hzero
  rcases x.shortest with ⟨k, p⟩
  have hdigits := isNumeral_nat k
  have hhead : IsNumeral (String.ofList ((toString k).toList.take 1)) :=
    hdigits.ofList fun _ => List.mem_of_mem_take
  have htail : IsNumeral (String.ofList ((toString k).toList.drop 1)) :=
    hdigits.ofList fun _ => List.mem_of_mem_drop
  dsimp only
  split
  · exact ((hdigits.ofList fun _ => id).append (isNumeral_zeros _)).append hwhole
  split
  · exact ((hdigits.ofList fun _ => List.mem_of_mem_take).append hpoint).append
      (hdigits.ofList fun _ => List.mem_of_mem_drop)
  split
  · exact (hfraction.append (isNumeral_zeros _)).append (hdigits.ofList fun _ => id)
  · refine ((hhead.append ?_).append hexponent).append (isNumeral_int _)
    split
    · exact hempty
    · exact hpoint.append htail

theorem isNumeral_number (n : Number) : IsNumeral n.text := by
  have hempty : IsNumeral "" := nofun
  have hminus : IsNumeral "-" := by simp [IsNumeral]
  cases n with
  | nat n => exact isNumeral_nat n
  | negative n => exact hminus.append (isNumeral_nat n)
  | real isNegative x =>
    refine IsNumeral.append ?_ (isNumeral_real x)
    split
    · exact hminus
    · exact hempty

theorem Kept.numeral (h : IsNumeral s) : Kept s.toList := by
  refine .of_forall fun c hc => ⟨?_, ?_⟩ <;> rintro rfl <;> exact absurd (h _ hc) (by decide)

end

/-! ## Written values hold no comments -/

namespace Layout

variable (l : Layout)

theorem kept_items {xs : List (List Char)} (h : ∀ x ∈ xs, Kept x) (depth : Nat) (isFirst : Bool) :
    Kept (l.items depth isFirst xs) := by
  induction xs generalizing isFirst with
  | nil => exact .nil
  | cons x xs ih =>
    rw [List.forall_mem_cons] at h
    have hcomma : Kept [','] := .cons (by decide) (by decide) .nil
    exact (Kept.ite .nil hcomma).append ((Kept.blank (l.gap_blank depth)).append (h.1.append (ih h.2 false)))

theorem kept_container {xs : List (List Char)} {opening closing : Char} (h : ∀ x ∈ xs, Kept x) (depth : Nat)
    (hopening : Kept [opening]) (hclosing : Kept [closing]) :
    Kept (l.container depth opening closing xs) :=
  hopening.append ((l.kept_items h (depth + 1) true).append
    ((Kept.ite .nil (Kept.blank (l.gap_blank depth))).append hclosing))

theorem kept_pair {name : String} {text : List Char} (h : Kept text) : Kept (l.pair name text) := by
  have hcolon : Kept [':'] := .cons (by decide) (by decide) .nil
  have hpair : l.pair name text = '"' :: (escapedText name ++ ['"']) ++ ([':'] ++ (l.afterColon ++ text)) := by
    simp [pair]
  rw [hpair]
  exact (Kept.string name).append (hcolon.append ((Kept.blank l.afterColon_blank).append h))

mutual

theorem kept_write (depth : Nat) : ∀ v : Value, Kept (l.write depth v)
  | .null => by
    rw [write]
    exact .of_forall (by simp)
  | .bool b => by
    rw [write]
    exact .of_forall (by cases b <;> simp [Value.boolText])
  | .number n => by
    rw [write]
    exact .numeral (isNumeral_number n)
  | .string s => by
    rw [write]
    exact .string s
  | .array vs => by
    rw [write]
    exact l.kept_container (kept_elements (depth + 1) vs) depth (.of_forall (by simp)) (.of_forall (by simp))
  | .object ms => by
    rw [write]
    exact l.kept_container (kept_members (depth + 1) ms) depth (.of_forall (by simp)) (.of_forall (by simp))

theorem kept_elements (depth : Nat) : ∀ vs : List Value, ∀ x ∈ l.elements depth vs, Kept x
  | [] => nofun
  | v :: vs => List.forall_mem_cons.2 ⟨kept_write depth v, kept_elements depth vs⟩

theorem kept_members (depth : Nat) : ∀ ms : List (String × Value), ∀ x ∈ l.members depth ms, Kept x
  | [] => nofun
  | (_, v) :: ms => List.forall_mem_cons.2 ⟨l.kept_pair (kept_write depth v), kept_members depth ms⟩

end

end Layout

/-- Written values hold no comments. -/
theorem strip_written (l : Layout) (v : Value) :
    Comments.strip (String.ofList (l.write 0 v)) = String.ofList (l.write 0 v) := by
  have h := l.kept_write 0 v []
  rw [List.append_nil, Comments.stripFrom, List.append_nil] at h
  rw [Comments.strip, String.toList_ofList, h]

end LineMatch.Json
