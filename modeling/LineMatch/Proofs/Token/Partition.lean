/-
  LineMatch.Proofs.Token.Partition — which part of a line each token is, in bytes.

  A token knows the bytes before it and up to its end. They are places between characters
  of the line, and what stands between them is the token's slice.

  Proved:
  - `texts_eq`: the text of a token is its slice without the quotes, and without the
    backslashes that stand inside quotes before a character, or at the end of the line.
  - `Cut.pairwise`, `Cut.blank_of_uncovered`: slices stand one behind the other, with a
    blank between them, and all that is not of a slice is blank.
  - `tokens_partition`: for the tokens of a line.
-/

import LineMatch.Proofs.Token.Slice

namespace LineMatch

open LineMatch.Text (isAsciiBlank size size_cons size_append size_pos size_toList isValid_of_append get?_of_append)

namespace Token

/-! ## Texts without their quotes -/

mutual

/-- The text of a slice from a place outside quotes on. -/
def bareText : List Char → List Char
  | [] => []
  | '"' :: cs => quotedText cs
  | c :: cs => c :: bareText cs

/-- The text of a slice from a place inside quotes on: a backslash stands for the
    character after it. -/
def quotedText : List Char → List Char
  | [] => []
  | '"' :: cs => bareText cs
  | ['\\'] => []
  | '\\' :: c :: cs => c :: quotedText cs
  | c :: cs => c :: quotedText cs

end

theorem texts_eq : (∀ cs, Quoting.outside.text cs = bareText cs) ∧ ∀ cs, Quoting.inside.text cs = quotedText cs := by
  apply bareText.mutual_induct
  case case1 => rfl
  case case2 =>
    intro cs ih
    rw [bareText, ← ih]
    rfl
  case case3 =>
    intro c cs hquote ih
    have hc : c ≠ '"' := hquote
    simp [bareText, Quoting.text, Quoting.yield, Quoting.next, hc, ih]
  case case4 => rfl
  case case5 =>
    intro cs ih
    rw [quotedText, ← ih]
    rfl
  case case6 => rfl
  case case7 =>
    intro c cs ih
    rw [quotedText, ← ih]
    rfl
  case case8 =>
    -- inside quotes and no quote: the two equations before this one keep a backslash out
    intro c cs hquote hlast hbefore ih
    have hc : c ≠ '"' := hquote
    have hslash : c ≠ '\\' := by
      intro h
      rcases cs with _ | ⟨d, cs⟩
      · exact hlast h rfl
      · exact hbefore d cs h rfl
    rw [quotedText.eq_5 _ _ hquote hlast hbefore, ← ih]
    simp [Quoting.text, Quoting.yield, Quoting.next, hc, hslash]

/-! ## Slices one behind the other -/

variable {pos : Nat} {c : Char} {cs before after : List Char} {t : Token} {ts : List Token} {line : String}

theorem Cut.pairwise (h : Cut pos cs ts) : ts.Pairwise fun t u => t.stop < u.start := by
  induction h with
  | nil => exact .nil
  | blank _ _ ih => exact ih
  | @slice pos slice rest ts _ hstops hcut ih =>
    refine List.pairwise_cons.2 ⟨fun u hu => ?_, ih⟩
    obtain ⟨before, next, after, rfl, hnext, -, rfl⟩ := hcut.mem hu
    -- the rest begins with a blank, and the next slice does not
    have hne : before ≠ [] := by
      rintro rfl
      rcases next with _ | ⟨c, next⟩
      · exact hnext.1 rfl
      · have hblank : isAsciiBlank c = true := hstops.2
        rw [hnext.head] at hblank
        cases hblank
    have := size_pos hne
    simp only [ofSlice_start, ofSlice_stop]
    omega

/-- What is not of a slice is blank. -/
theorem Cut.blank_of_uncovered (h : Cut pos cs ts) (heq : cs = before ++ c :: after)
    (hfree : ∀ t ∈ ts, pos + size before < t.start ∨ t.stop ≤ pos + size before) : isAsciiBlank c = true := by
  induction h generalizing before with
  | nil => simp at heq
  | @blank pos d cs ts hd _ ih =>
    rcases before with _ | ⟨e, before⟩
    · cases heq
      exact hd
    · rw [List.cons_append, List.cons.injEq] at heq
      obtain ⟨rfl, rfl⟩ := heq
      rw [size_cons, ← Nat.add_assoc] at hfree
      exact ih rfl hfree
  | @slice pos slice rest ts _ _ _ ih =>
    rcases List.append_eq_append_iff.1 heq with ⟨mid, rfl, rfl⟩ | ⟨mid, rfl, hmid⟩
    · rw [size_append, ← Nat.add_assoc] at hfree
      exact ih rfl fun t ht => hfree t (List.mem_cons_of_mem _ ht)
    · rcases mid with _ | ⟨d, mid⟩
      · rw [List.nil_append] at hmid
        have hrest : rest = [] ++ c :: after := hmid.symm
        refine ih hrest fun t ht => ?_
        simpa [size] using hfree t (List.mem_cons_of_mem _ ht)
      · -- the place is inside the slice
        have hcovered := hfree _ List.mem_cons_self
        have := size_pos (List.cons_ne_nil d mid)
        simp only [ofSlice_start, ofSlice_stop, size_append] at hcovered
        omega

/-! ## The tokens of a line -/

/-- The part of the line that the token is read from. -/
def slice (line : String) (t : Token) : String := String.Pos.Raw.extract line ⟨t.start⟩ ⟨t.stop⟩

theorem slice_ofSlice (h : line.toList = before ++ cs ++ after) :
    (ofSlice (size before) cs).slice line = String.ofList cs := Text.extract_of_append h

/-- The token is one of the line: it stands between two places of it, and is what its
    slice says. -/
structure StandsIn (line : String) (t : Token) : Prop where
  start_lt_stop : t.start < t.stop
  stop_le : t.stop ≤ line.utf8ByteSize
  start_valid : String.Pos.Raw.IsValid line ⟨t.start⟩
  stop_valid : String.Pos.Raw.IsValid line ⟨t.stop⟩
  begins : ∃ c cs, (t.slice line).toList = c :: cs ∧ isAsciiBlank c = false
  /-- What follows, if anything does, is a blank. -/
  ends : ∀ c ∈ String.Pos.Raw.get? line ⟨t.stop⟩, isAsciiBlank c = true
  /-- A blank in the slice has an open quote before it. -/
  joins : ∀ as c bs, (t.slice line).toList = as ++ c :: bs → isAsciiBlank c = true → Quoting.outside.after as ≠ .outside
  isQuoted_iff : t.isQuoted = true ↔ '"' ∈ (t.slice line).toList
  text_of_not_isQuoted : t.isQuoted = false → t.text = t.slice line
  text_eq : t.text = String.ofList (bareText (t.slice line).toList)

theorem standsIn_ofSlice (heq : line.toList = before ++ cs ++ after) (hslice : IsSlice cs)
    (hstops : (Quoting.outside.after cs).Stops after) : (ofSlice (size before) cs).StandsIn line := by
  have hcs : ((ofSlice (size before) cs).slice line).toList = cs := by
    rw [slice_ofSlice heq, String.toList_ofList]
  have hline : line.toList = (before ++ cs) ++ after := heq
  have hsize : size before + size cs = size (before ++ cs) := (size_append before cs).symm
  constructor
  case start_lt_stop => simpa using size_pos hslice.1
  case stop_le =>
    rw [ofSlice_stop, ← size_toList, heq, size_append, size_append]
    omega
  case start_valid =>
    have hstart : line.toList = before ++ (cs ++ after) := by rw [heq, List.append_assoc]
    exact isValid_of_append hstart
  case stop_valid =>
    rw [ofSlice_stop, hsize]
    exact isValid_of_append hline
  case begins =>
    rw [hcs]
    rcases cs with _ | ⟨c, cs⟩
    · exact absurd rfl hslice.1
    · exact ⟨c, cs, rfl, hslice.head⟩
  case ends =>
    intro c hc
    rw [ofSlice_stop, hsize, get?_of_append hline] at hc
    rcases after with _ | ⟨d, after⟩
    · cases hc
    · cases hc
      exact hstops.2
  case joins =>
    intro as c bs has hc hout
    have hjoins := hslice.2
    rw [← hcs, has, Quoting.joins_append] at hjoins
    exact hjoins.2.1 ⟨hout, hc⟩
  case isQuoted_iff =>
    rw [hcs]
    exact Quoting.hasMark_iff
  case text_of_not_isQuoted =>
    intro hplain
    have hmem : '"' ∉ cs := by
      intro h
      rw [ofSlice_isQuoted, Quoting.hasMark_iff.2 h] at hplain
      cases hplain
    rw [slice_ofSlice heq, ofSlice_text, (Quoting.outside_plain hmem).2.1]
  case text_eq => rw [hcs, ofSlice_text, texts_eq.1]

theorem standsIn_of_mem (ht : t ∈ tokens line) : t.StandsIn line := by
  obtain ⟨before, cs, after, heq, hslice, hstops, rfl⟩ := (cut_gap 0 line.toList).mem ht
  rw [Nat.zero_add]
  exact standsIn_ofSlice heq hslice hstops

end Token

open Token in
/-- The tokens of a line stand in it one behind the other, each the part of the line
    between two places of it: from a character that is no blank up to a blank outside
    quotes or the end. What is not of a token is blank. A token is quoted where its part
    has a quote in it, and its text is its part without the quotes and the backslashes
    that escape inside them. -/
theorem tokens_partition (line : String) :
    (∀ t ∈ tokens line, t.StandsIn line) ∧ (tokens line).Pairwise (fun t u => t.stop < u.start) ∧
      ∀ p : String.Pos.Raw, p.IsValid line → (∀ t ∈ tokens line, p.byteIdx < t.start ∨ t.stop ≤ p.byteIdx) →
        ∀ c ∈ p.get? line, isAsciiBlank c = true := by
  have hcut : Cut 0 line.toList (tokens line) := cut_gap 0 line.toList
  refine ⟨fun t ht => standsIn_of_mem ht, hcut.pairwise, fun p hp hfree c hc => ?_⟩
  obtain ⟨as, bs, heq, hbyte⟩ := Text.exists_append_of_isValid hp
  have hget : p.get? line = bs.head? := by
    rw [← Text.get?_of_append heq, ← hbyte]
  rw [hget] at hc
  rcases bs with _ | ⟨d, bs⟩
  · cases hc
  · cases hc
    refine hcut.blank_of_uncovered heq fun t ht => ?_
    rw [Nat.zero_add, ← hbyte]
    exact hfree t ht

/-- An open quote, an escaped quote and a backslash at the end. -/
theorem open_quote_stands : ∃ t ∈ tokens "é  x\"a \\\"b \\", t.slice "é  x\"a \\\"b \\" = "x\"a \\\"b \\" ∧
    t.text = "xa \"b " ∧ t.StandsIn "é  x\"a \\\"b \\" := by
  have hmem : ⟨"xa \"b ", true, 4, 13⟩ ∈ tokens "é  x\"a \\\"b \\" := by decide +kernel
  exact ⟨_, hmem, by decide +kernel, rfl, (tokens_partition _).1 _ hmem⟩

end LineMatch
