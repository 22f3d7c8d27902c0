/-
  LineMatch.Proofs.Line.Keystroke — the word that the next key goes to.

  Where a line ends with its last word is told from the byte at which the word ends. So
  a word whose quotes are open goes on at a blank, and one whose quotes have just been
  closed goes on at the next character. A character that is no blank, quote or backslash
  is read as it is wherever the line ends, behind a backslash too.

  Proved:
  - `wordAtEnd_last`: the word at the end is what the last slice says, if there is one.
  - `tokens_push`: with one more character, the tokens before that word are the same, and
    it has the character at its end.
  - `next_key`: so the word that is completed is the one that the next key goes to.
-/

import LineMatch.Proofs.Matching.Legal
import LineMatch.Proofs.Token.Composing

namespace LineMatch

open LineMatch.Text (isAsciiBlank size size_append size_pos)
open LineMatch.Token

variable {k : Char} {cs front slice : List Char} {ts : List Token}

/-- A character that is read as it is, inside quotes and outside. -/
def IsPlainKey (k : Char) : Prop := isAsciiBlank k = false ∧ k ≠ '"' ∧ k ≠ '\\'

instance (k : Char) : Decidable (IsPlainKey k) := inferInstanceAs (Decidable (_ ∧ _))

namespace IsPlainKey

theorem text_push (h : IsPlainKey k) (q : Quoting) : q.text (cs ++ [k]) = q.text cs ++ [k] := by
  obtain ⟨-, hquote, hslash⟩ := h
  rw [Quoting.text_append]
  cases hq : q.after cs <;> simp [Quoting.text, Quoting.yield, hquote, hslash]

theorem isSlice_push (h : IsPlainKey k) (hjoins : Quoting.outside.Joins cs) : IsSlice (cs ++ [k]) := by
  refine ⟨by simp, Quoting.joins_append.2 ⟨hjoins, ?_, trivial⟩⟩
  simp [h.1]

end IsPlainKey

/-- The word at the end of a line is what the slice says that the line ends with: nothing
    if that is empty, else the last token. -/
theorem wordAtEnd_last (hjoins : Quoting.outside.Joins slice) (hbefore : ∀ t ∈ ts, t.stop < size front) :
    wordAtEnd (ts ++ gap (size front) slice) (size (front ++ slice)) =
      (ts.length, String.ofList (Quoting.outside.text slice)) := by
  rcases slice with _ | ⟨c, cs⟩
  · rw [gap, List.append_nil, List.append_nil]
    exact wordAtEnd_of_stop_lt fun last hlast => hbefore last (List.mem_of_getLast? hlast)
  · rw [gap_whole ⟨List.cons_ne_nil c cs, hjoins⟩]
    have hlast : (ts ++ [ofSlice (size front) (c :: cs)]).getLast? = some (ofSlice (size front) (c :: cs)) := by simp
    rw [wordAtEnd_of_le_stop hlast (by rw [ofSlice_stop, size_append]), List.dropLast_concat, ofSlice_text]

/-- With one more character, the tokens before the word at the end are the same, and the
    word has the character at its end. -/
theorem tokens_push (line : String) (hk : IsPlainKey k) : ∃ q start,
    tokens (line.push k) = (tokens line).take (wordAtEnd (tokens line) (size line.toList)).1 ++
      [⟨(wordAtEnd (tokens line) (size line.toList)).2.push k, q, start, size (line.push k).toList⟩] ∧
    (wordAtEnd (tokens line) (size line.toList)).1 ≤ (tokens line).length := by
  obtain ⟨front, slice, ts, heq, hjoins, -, hbefore, hsame⟩ := exists_last line.toList
  have htokens : tokens line = ts ++ gap (size front) slice := by
    rw [tokens, heq, hsame]
  have hend : wordAtEnd (tokens line) (size line.toList) = (ts.length, String.ofList (Quoting.outside.text slice)) := by
    rw [htokens, heq]
    exact wordAtEnd_last hjoins hbefore
  have hpush : tokens (line.push k) = ts ++ [ofSlice (size front) (slice ++ [k])] := by
    rw [tokens, String.toList_push, heq, List.append_assoc, hsame, gap_whole (hk.isSlice_push hjoins)]
  have htext : String.ofList (Quoting.outside.text (slice ++ [k])) =
      (String.ofList (Quoting.outside.text slice)).push k := by
    rw [hk.text_push, String.ofList_append, String.push_eq_append, String.singleton_eq_ofList]
  refine ⟨Quoting.outside.hasMark (slice ++ [k]), size front, ?_, ?_⟩
  · rw [hend, hpush, htokens, List.take_left, String.toList_push, heq, List.append_assoc, size_append, ← htext]
    rfl
  · rw [hend, htokens, List.length_append]
    exact Nat.le_add_right _ _

/-- The word that is completed is the one that the next key goes to. A line with one more
    character that is no blank, quote or backslash has one token behind those before the
    word at its end. The tokens before are the same, and this one is what was typed of the
    word with the character at its end. That word is the target of the match that completes
    the line, in any session that does, and what was typed of it is what it gives. -/
theorem next_key (line : String) (k : Char) (hk : IsPlainKey k) :
    let place := (wordAtEnd (tokens line) (size line.toList)).1
    let typed := (wordAtEnd (tokens line) (size line.toList)).2
    ((tokens (line.push k)).length = place + 1 ∧ (tokens (line.push k)).take place = (tokens line).take place ∧
        (tokens (line.push k))[place]?.map Token.text = some (typed.push k)) ∧
      ∀ (s : Session) (run : Executor) (x : Completion), (s.complete? run line).1 = some x →
        s.grammar.resolve? (tokens line) = some x.command ∧
          let m := s.setting run x.command (tokens line) (some place)
          x = ⟨x.command, m.result.1, m.result.2.candidates, typed⟩ := by
  intro place typed
  constructor
  · obtain ⟨q, start, hpush, hle⟩ := tokens_push line hk
    have hlength : ((tokens line).take place).length = place := List.length_take_of_le hle
    refine ⟨?_, ?_, ?_⟩
    · rw [hpush, List.length_append, hlength]
      rfl
    · rw [hpush, List.take_append_of_le_length (Nat.le_of_eq hlength.symm), List.take_take, Nat.min_self]
    · rw [hpush, List.getElem?_append_right (Nat.le_of_eq hlength), hlength, Nat.sub_self]
      rfl
  · intro s run x hx
    obtain ⟨command, hcommand, hcompletion, -⟩ := Session.complete?_spec hx
    subst hcompletion
    exact ⟨hcommand, rfl⟩

open Matching.Sample in
/-- A blank inside an open quote: the next key goes to the word with the blank in it. -/
theorem tune_next_key : ∃ x, (tuning.scope.session.complete? never "tune \"5 ").1 = some x ∧ IsPlainKey '6' ∧
    x.typed = "5 " ∧ (tokens "tune \"5 6")[1]?.map Token.text = some (x.typed.push '6') := by
  have hsome : (tuning.scope.session.complete? never "tune \"5 ").1.isSome = true := by decide +kernel
  obtain ⟨x, hx⟩ := Option.isSome_iff_exists.1 hsome
  have hend : wordAtEnd (tokens "tune \"5 ") (size "tune \"5 ".toList) = (1, "5 ") := by decide +kernel
  obtain ⟨⟨-, -, htext⟩, hcompletes⟩ := next_key "tune \"5 " '6' (by decide)
  obtain ⟨-, hcompletion⟩ := hcompletes tuning.scope.session never x hx
  rw [hend] at htext hcompletion
  have htyped : x.typed = "5 " := congrArg Completion.typed hcompletion
  refine ⟨x, hx, by decide, htyped, ?_⟩
  rw [htyped]
  exact htext

end LineMatch
