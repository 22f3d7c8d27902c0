/-
  LineMatch.Proofs.Token.Composing — lines put together and taken apart at blanks.

  What is read behind a blank outside quotes does not depend on what stands before it:
  the places of the words aside, they are those of a line that begins there. With quotes
  open at the end of the first line, its last word goes on in the second.

  Proved:
  - `tokens_append`: the tokens of two lines with blanks between them.
  - `closed_of_append`: they are so only where no quotes are open at the end of the first.
  - `tokens_compose`: both, and the slice of a token is a line of this one token.
-/

import LineMatch.Proofs.Token.Partition

namespace LineMatch

open LineMatch.Text (isAsciiBlank width size size_cons size_append size_pos size_toList)

/-- No quotes are open at the end of the line. -/
def Closed (line : String) : Prop := Token.Quoting.outside.after line.toList = .outside

instance (line : String) : Decidable (Closed line) := inferInstanceAs (Decidable (_ = _))

namespace Token

/-- A token of a line that has `k` bytes put before it. -/
def shift (k : Nat) (t : Token) : Token := { t with start := k + t.start, stop := k + t.stop }

variable {pos k : Nat} {cs bs : List Char} {t : Token} {ts : List Token}

theorem shift_ofSlice : (ofSlice pos cs).shift k = ofSlice (k + pos) cs := by
  simp [shift, ofSlice, ofTail, tail, Nat.add_assoc]

theorem Cut.shift (h : Cut pos cs ts) : Cut (k + pos) cs (ts.map (Token.shift k)) := by
  induction h with
  | nil => exact .nil
  | blank hc _ ih =>
    rw [← Nat.add_assoc] at ih
    exact .blank hc ih
  | slice hslice hstops _ ih =>
    rw [← Nat.add_assoc] at ih
    rw [List.map_cons, shift_ofSlice]
    exact .slice hslice hstops ih

theorem gap_shift (pos : Nat) (cs : List Char) : gap pos cs = (gap 0 cs).map (Token.shift pos) :=
  (cut_gap 0 cs).shift.gap_eq

theorem gap_blanks (h : ∀ c ∈ bs, isAsciiBlank c = true) : gap pos (bs ++ cs) = gap (pos + size bs) cs := by
  induction bs generalizing pos with
  | nil => rfl
  | cons b bs ih =>
    rw [List.cons_append, gap, if_pos (h b List.mem_cons_self), ih fun c hc => h c (List.mem_cons_of_mem _ hc),
      size_cons, Nat.add_assoc]

/-- A slice that is all of a text is its one token. -/
theorem gap_whole (h : IsSlice cs) : gap pos cs = [ofSlice pos cs] := by
  have hgap : gap pos (cs ++ []) = ofSlice pos cs :: gap (pos + size cs) [] := gap_slice h trivial
  rwa [List.append_nil] at hgap

end Token

open Token

variable {a s b line : String}

/-- The tokens of two lines with blanks between them, and no quotes open before the blanks. -/
theorem tokens_append (hclosed : Closed a) (hs : s ≠ "") (hblank : ∀ c ∈ s.toList, isAsciiBlank c = true) (b : String) :
    tokens (a ++ s ++ b) = tokens a ++ (tokens b).map (Token.shift (a ++ s).utf8ByteSize) := by
  have hne : s.toList ≠ [] := fun h => hs (String.toList_eq_nil_iff.1 h)
  obtain ⟨c, bs, hcons⟩ := List.exists_cons_of_ne_nil hne
  have hc : isAsciiBlank c = true := hblank c (by rw [hcons]; exact List.mem_cons_self)
  have hrest : gap (0 + size a.toList) (s.toList ++ b.toList) = (tokens b).map (Token.shift (a ++ s).utf8ByteSize) := by
    rw [gap_blanks hblank, gap_shift, Nat.zero_add, ← size_append, ← String.toList_append, size_toList]
    rfl
  have hcut := (cut_gap 0 a.toList).append hclosed hc (cut_gap (0 + size a.toList) (c :: (bs ++ b.toList)))
  rw [← List.cons_append, ← hcons, hrest] at hcut
  have hgap := hcut.gap_eq
  rw [← List.append_assoc, ← String.toList_append, ← String.toList_append] at hgap
  exact hgap

/-- With quotes open the last word goes on behind the blanks. -/
theorem closed_of_append (hs : s ≠ "")
    (h : tokens (a ++ s ++ b) = tokens a ++ (tokens b).map (Token.shift (a ++ s).utf8ByteSize)) : Closed a := by
  obtain ⟨front, cs, ts, heq, hjoins, hout, -, hsame⟩ := exists_last a.toList
  by_contra hopen
  have hafter : Quoting.outside.after cs ≠ .outside := by
    intro hcs
    apply hopen
    rw [Closed, heq, Quoting.after_append, hout, hcs]
  have hcs : cs ≠ [] := by
    rintro rfl
    exact hafter rfl
  have ha : tokens a = ts ++ [ofSlice (size front) cs] := by
    rw [tokens, heq, hsame, gap_whole ⟨hcs, hjoins⟩]
  obtain ⟨more, rest, hmore, hjoinsMore, hstops⟩ := exists_slice (Quoting.outside.after cs) (s.toList ++ b.toList)
  have hne : more ≠ [] := by
    rintro rfl
    rw [List.nil_append] at hmore
    rw [← hmore] at hstops
    rcases hsb : s.toList ++ b.toList with _ | ⟨c, sb⟩
    · exact hs (String.toList_eq_nil_iff.1 (List.append_eq_nil_iff.1 hsb).1)
    · rw [hsb] at hstops
      exact hafter hstops.1
  -- the last word of `a` takes what follows along as far as the quotes go
  have hslice : IsSlice (cs ++ more) := ⟨by simp [hcs], Quoting.joins_append.2 ⟨hjoins, hjoinsMore⟩⟩
  rw [← Quoting.after_append] at hstops
  have hall : tokens (a ++ s ++ b) =
      ts ++ ofSlice (size front) (cs ++ more) :: gap (size front + size (cs ++ more)) rest := by
    rw [tokens, String.toList_append, String.toList_append, heq, List.append_assoc, List.append_assoc, hmore, hsame,
      ← List.append_assoc, gap_slice hslice hstops]
  rw [ha, hall, List.append_assoc, List.append_cancel_left_eq, List.singleton_append, List.cons.injEq] at h
  have hstop := congrArg Token.stop h.1
  have hpos := size_pos hne
  simp only [ofSlice_stop, size_append] at hstop
  omega

/-- Blanks outside quotes cut a line into lines: where no quotes are open before them,
    and only there, the tokens are those of the text before and those of the text after,
    moved by the bytes before. And the slice of a token is a line of this token alone. -/
theorem tokens_compose :
    (∀ a s b : String, s ≠ "" → (∀ c ∈ s.toList, isAsciiBlank c = true) →
      (Closed a ↔ tokens (a ++ s ++ b) = tokens a ++ (tokens b).map (Token.shift (a ++ s).utf8ByteSize))) ∧
    ∀ line : String, ∀ t ∈ tokens line,
      tokens (t.slice line) = [⟨t.text, t.isQuoted, 0, (t.slice line).utf8ByteSize⟩] := by
  constructor
  · intro a s b hs hblank
    exact ⟨fun hclosed => tokens_append hclosed hs hblank b, closed_of_append hs⟩
  · intro line t ht
    obtain ⟨before, cs, after, heq, hslice, -, rfl⟩ := (cut_gap 0 line.toList).mem ht
    rw [Nat.zero_add, slice_ofSlice heq, tokens, String.toList_ofList, gap_whole hslice, ← size_toList,
      String.toList_ofList, ofSlice, ofTail, tail, Nat.zero_add]
    rfl

/-- Quotes that are closed before two blanks. -/
theorem say_composed : tokens "say \"a b\" \tc" = tokens "say \"a b\"" ++ (tokens "c").map (Token.shift 11) ∧
    ∃ t ∈ tokens "say \"a b\"", tokens (t.slice "say \"a b\"") = [⟨"a b", true, 0, 5⟩] := by
  have hmem : ⟨"a b", true, 4, 9⟩ ∈ tokens "say \"a b\"" := by decide +kernel
  refine ⟨(tokens_compose.1 "say \"a b\"" " \t" "c" (by decide) (by simp [isAsciiBlank])).1 (by decide), _, hmem, ?_⟩
  have hslice : (⟨"a b", true, 4, 9⟩ : Token).slice "say \"a b\"" = "\"a b\"" := by decide +kernel
  have := tokens_compose.2 _ _ hmem
  rw [hslice] at this ⊢
  exact this

end LineMatch
