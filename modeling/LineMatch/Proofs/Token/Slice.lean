/-
  LineMatch.Proofs.Token.Slice — the words of a line, cut at the blanks outside quotes.

  A word is read from its slice of the line: characters of which the first is no blank
  and every blank stands inside quotes, up to the end of the line or to a blank outside
  quotes. `Cut` says that a text is blanks with such slices among them; `ofSlice` is what
  is read of one.

  Proved:
  - `gap_slice`: a slice before a blank or the end is read as one word.
  - `cut_iff`: the tokens read of a text are those it can be cut into, and there is one
    way to cut it.
  - `Cut.mem`: where a token stands in a text that is cut.
  - `Cut.append`: texts that are cut can be put together at a blank outside quotes.
  - `exists_last`: the end of a text is a slice after a blank outside quotes, or empty.
-/

import LineMatch.Proofs.Text.Bytes
import LineMatch.Token

namespace LineMatch

open LineMatch.Text (isAsciiBlank width size size_cons size_append width_pos size_pos)

namespace Token

/-! ## Reading a part of a word -/

namespace Quoting

/-- Where reading stands after some characters. -/
def after (q : Quoting) (cs : List Char) : Quoting := cs.foldl next q

/-- What characters add to the text of the word. -/
def text : Quoting → List Char → List Char
  | _, [] => []
  | q, c :: cs => q.yield c ++ text (q.next c) cs

/-- Whether quotes open or close among some characters. -/
def hasMark : Quoting → List Char → Bool
  | _, [] => false
  | q, c :: cs => q.isMark c || hasMark (q.next c) cs

/-- No blank among the characters stands outside quotes. -/
def Joins : Quoting → List Char → Prop
  | _, [] => True
  | q, c :: cs => ¬ (q = .outside ∧ isAsciiBlank c = true) ∧ Joins (q.next c) cs

/-- A word ends before these characters. -/
def Stops (q : Quoting) : List Char → Prop
  | [] => True
  | c :: _ => q = .outside ∧ isAsciiBlank c = true

variable {q : Quoting} {c : Char} {as bs cs : List Char}

@[simp] theorem after_nil : q.after [] = q := rfl

@[simp] theorem after_cons : q.after (c :: cs) = (q.next c).after cs := rfl

theorem after_append : q.after (as ++ bs) = (q.after as).after bs := List.foldl_append

theorem text_append : q.text (as ++ bs) = q.text as ++ (q.after as).text bs := by
  induction as generalizing q with
  | nil => rfl
  | cons a as ih => rw [List.cons_append, text, ih, text, List.append_assoc, after_cons]

theorem joins_append : q.Joins (as ++ bs) ↔ q.Joins as ∧ (q.after as).Joins bs := by
  induction as generalizing q with
  | nil => simp [Joins]
  | cons a as ih => rw [List.cons_append, Joins, ih, Joins, after_cons, and_assoc]

theorem ne_of_blank (h : isAsciiBlank c = true) : c ≠ '"' ∧ c ≠ '\\' := by
  constructor
  · rintro rfl
    cases h
  · rintro rfl
    cases h

theorem next_blank (h : isAsciiBlank c = true) : outside.next c = .outside := if_neg (ne_of_blank h).1

/-- Outside quotes the characters before the first quote are read as they are. -/
theorem outside_plain (h : '"' ∉ cs) : outside.after cs = .outside ∧ outside.text cs = cs ∧ outside.hasMark cs = false := by
  induction cs with
  | nil => exact ⟨rfl, rfl, rfl⟩
  | cons c cs ih =>
    have hc : c ≠ '"' := fun he => h (he ▸ List.mem_cons_self)
    have hnext : outside.next c = .outside := if_neg hc
    obtain ⟨hafter, htext, hmark⟩ := ih fun hmem => h (List.mem_cons_of_mem _ hmem)
    refine ⟨by rw [after_cons, hnext, hafter], ?_, ?_⟩
    · simp [text, hnext, htext, yield, hc]
    · simp [hasMark, hnext, hmark, isMark, hc]

theorem hasMark_iff : outside.hasMark cs = true ↔ '"' ∈ cs := by
  induction cs with
  | nil => simp [hasMark]
  | cons c cs ih =>
    by_cases hc : c = '"'
    · simp [hasMark, isMark, hc]
    · have hnext : outside.next c = .outside := if_neg hc
      simp [hasMark, isMark, hc, hnext, ih, Ne.symm hc]

end Quoting

/-! ## Slices -/

open Quoting (Stops outside_plain next_blank)

/-- What is read of a part of a word, and where it stops. -/
def tail (q : Quoting) (pos : Nat) (cs : List Char) : Tail := ⟨q.text cs, q.hasMark cs, pos + size cs⟩

/-- Characters that can be one word. -/
def IsSlice (cs : List Char) : Prop := cs ≠ [] ∧ Quoting.outside.Joins cs

/-- The token that is read of a slice. -/
def ofSlice (pos : Nat) (cs : List Char) : Token := ofTail pos (tail .outside pos cs)

section

variable (pos : Nat) (cs : List Char)

@[simp] theorem ofSlice_text : (ofSlice pos cs).text = String.ofList (Quoting.outside.text cs) := rfl
@[simp] theorem ofSlice_isQuoted : (ofSlice pos cs).isQuoted = Quoting.outside.hasMark cs := rfl
@[simp] theorem ofSlice_start : (ofSlice pos cs).start = pos := rfl
@[simp] theorem ofSlice_stop : (ofSlice pos cs).stop = pos + size cs := rfl

end

variable {pos : Nat} {q : Quoting} {c : Char} {as bs cs slice rest : List Char} {t : Token} {ts us : List Token}

theorem word_slice (hjoins : q.Joins slice) (hstops : (q.after slice).Stops rest) :
    word q pos (slice ++ rest) = (tail q pos slice, gap (pos + size slice) rest) := by
  induction slice generalizing q pos with
  | nil =>
    cases rest with
    | nil => simp [word, gap, tail, Quoting.text, Quoting.hasMark, size]
    | cons c rest =>
      -- the word ends at this blank, which `gap` skips
      obtain ⟨hq, hc⟩ := hstops
      simp only [Quoting.after_nil] at hq
      simp [word, gap, tail, Quoting.text, Quoting.hasMark, size, hq, hc]
  | cons c slice ih =>
    obtain ⟨hc, hjoins⟩ := hjoins
    rw [List.cons_append, word, if_neg hc, ih hjoins hstops]
    simp [tail, Tail.cons, Quoting.text, Quoting.hasMark, size_cons, Nat.add_assoc]

theorem IsSlice.head (h : IsSlice (c :: cs)) : isAsciiBlank c = false := by
  have hc := h.2.1
  simpa using hc

/-- A slice before a blank or the end of the text is read as one word. -/
theorem gap_slice (h : IsSlice slice) (hstops : (Quoting.outside.after slice).Stops rest) :
    gap pos (slice ++ rest) = ofSlice pos slice :: gap (pos + size slice) rest := by
  rcases slice with _ | ⟨c, slice⟩
  · exact absurd rfl h.1
  have hword : word (Quoting.outside.next c) (pos + width c) (slice ++ rest) =
      (tail (Quoting.outside.next c) (pos + width c) slice, gap (pos + width c + size slice) rest) :=
    word_slice h.2.2 hstops
  rw [List.cons_append, gap, if_neg (by simp [h.head]), hword, size_cons, ← Nat.add_assoc]
  simp [ofSlice, tail, Tail.cons, Quoting.text, Quoting.hasMark, size_cons, Nat.add_assoc]

/-- Some characters from the first on are of one word, and the word ends behind them. -/
theorem exists_slice (q : Quoting) (cs : List Char) :
    ∃ slice rest, cs = slice ++ rest ∧ q.Joins slice ∧ (q.after slice).Stops rest := by
  induction cs generalizing q with
  | nil => exact ⟨[], [], rfl, trivial, trivial⟩
  | cons c cs ih =>
    by_cases hc : q = .outside ∧ isAsciiBlank c = true
    · exact ⟨[], c :: cs, rfl, trivial, hc⟩
    · obtain ⟨slice, rest, rfl, hjoins, hstops⟩ := ih (q.next c)
      exact ⟨c :: slice, rest, rfl, ⟨hc, hjoins⟩, hstops⟩

/-! ## Cutting a text -/

/-- A text that begins `pos` bytes into the line is blanks, and slices of the tokens. -/
inductive Cut : Nat → List Char → List Token → Prop
  | nil {pos : Nat} : Cut pos [] []
  | blank {pos : Nat} {c : Char} {cs : List Char} {ts : List Token} :
      isAsciiBlank c = true → Cut (pos + width c) cs ts → Cut pos (c :: cs) ts
  | slice {pos : Nat} {slice rest : List Char} {ts : List Token} :
      IsSlice slice → (Quoting.outside.after slice).Stops rest → Cut (pos + size slice) rest ts →
        Cut pos (slice ++ rest) (ofSlice pos slice :: ts)

theorem Cut.gap_eq (h : Cut pos cs ts) : gap pos cs = ts := by
  induction h with
  | nil => rfl
  | blank hc _ ih => rw [gap, if_pos hc, ih]
  | slice hslice hstops _ ih => rw [gap_slice hslice hstops, ih]

theorem exists_cut (pos : Nat) (cs : List Char) : ∃ ts, Cut pos cs ts := by
  induction hn : cs.length using Nat.strongRecOn generalizing pos cs with
  | ind n ih =>
    rcases cs with _ | ⟨c, cs⟩
    · exact ⟨[], .nil⟩
    by_cases hc : isAsciiBlank c = true
    · obtain ⟨ts, hcut⟩ := ih cs.length (by simp [← hn]) (pos + width c) cs rfl
      exact ⟨ts, .blank hc hcut⟩
    · obtain ⟨slice, rest, heq, hjoins, hstops⟩ := exists_slice .outside (c :: cs)
      have hne : slice ≠ [] := by
        rintro rfl
        rw [List.nil_append] at heq
        rw [← heq] at hstops
        exact hc hstops.2
      have hlen : rest.length < n := by
        have := List.length_pos_iff.2 hne
        rw [← hn, heq, List.length_append]
        omega
      obtain ⟨ts, hcut⟩ := ih rest.length hlen (pos + size slice) rest rfl
      rw [heq]
      exact ⟨_, .slice ⟨hne, hjoins⟩ hstops hcut⟩

/-- The tokens of a text are those that it can be cut into. -/
theorem cut_iff : Cut pos cs ts ↔ gap pos cs = ts := by
  constructor
  · exact Cut.gap_eq
  · rintro rfl
    obtain ⟨ts, hcut⟩ := exists_cut pos cs
    rwa [hcut.gap_eq]

theorem cut_gap (pos : Nat) (cs : List Char) : Cut pos cs (gap pos cs) := cut_iff.2 rfl

/-- Where a token stands in a text that is cut. -/
theorem Cut.mem (h : Cut pos cs ts) (ht : t ∈ ts) : ∃ before slice after, cs = before ++ slice ++ after ∧
    IsSlice slice ∧ (Quoting.outside.after slice).Stops after ∧ t = ofSlice (pos + size before) slice := by
  induction h with
  | nil => cases ht
  | @blank pos c cs ts hc _ ih =>
    obtain ⟨before, slice, after, rfl, hslice, hstops, rfl⟩ := ih ht
    refine ⟨c :: before, slice, after, rfl, hslice, hstops, ?_⟩
    rw [size_cons, Nat.add_assoc]
  | @slice pos slice rest ts hslice hstops _ ih =>
    rcases List.mem_cons.1 ht with rfl | ht
    · exact ⟨[], slice, rest, rfl, hslice, hstops, by simp [size]⟩
    · obtain ⟨before, slice', after, rfl, hslice', hstops', rfl⟩ := ih ht
      refine ⟨slice ++ before, slice', after, by simp, hslice', hstops', ?_⟩
      rw [size_append, Nat.add_assoc]

/-- A text that is cut goes on behind a blank outside quotes as if it began there. -/
theorem Cut.append (h : Cut pos as ts) (hout : Quoting.outside.after as = .outside) (hc : isAsciiBlank c = true)
    (hnext : Cut (pos + size as) (c :: cs) us) : Cut pos (as ++ c :: cs) (ts ++ us) := by
  induction h with
  | nil => simpa [size] using hnext
  | @blank pos d as ts hd _ ih =>
    rw [Quoting.after_cons, next_blank hd] at hout
    rw [size_cons, ← Nat.add_assoc] at hnext
    exact .blank hd (ih hout hnext)
  | @slice pos slice rest ts hslice hstops _ ih =>
    rw [Quoting.after_append] at hout
    rw [size_append, ← Nat.add_assoc] at hnext
    rw [List.append_assoc, List.cons_append]
    rcases rest with _ | ⟨d, rest⟩
    · -- the slice was at the end of the text, and now ends at the blank
      exact .slice hslice ⟨hout, hc⟩ (ih rfl hnext)
    · rw [hstops.1] at hout
      exact .slice hslice hstops (ih hout hnext)

/-! ## The last word -/

/-- A part of a word has no blank outside quotes, or there is a last one in it. -/
theorem joins_or_blank (q : Quoting) (cs : List Char) : q.Joins cs ∨ ∃ front b slice, cs = front ++ b :: slice ∧
    q.after front = .outside ∧ isAsciiBlank b = true ∧ Quoting.outside.Joins slice := by
  induction cs generalizing q with
  | nil => exact .inl trivial
  | cons c cs ih =>
    rcases ih (q.next c) with hjoins | ⟨front, b, slice, rfl, hout, hb, hjoins⟩
    · by_cases hc : q = .outside ∧ isAsciiBlank c = true
      · obtain ⟨rfl, hc⟩ := hc
        rw [next_blank hc] at hjoins
        exact .inr ⟨[], c, cs, rfl, rfl, hc, hjoins⟩
      · exact .inl ⟨hc, hjoins⟩
    · exact .inr ⟨c :: front, b, slice, rfl, hout, hb, hjoins⟩

theorem stop_le_of_mem_gap (ht : t ∈ gap 0 cs) : t.stop ≤ size cs := by
  obtain ⟨before, slice, after, rfl, -, -, rfl⟩ := (cut_gap 0 cs).mem ht
  simp only [ofSlice_stop, size_append]
  omega

/-- A text ends with a slice or with a blank. The tokens before are the same, whatever
    stands in the place of the slice. -/
theorem exists_last (cs : List Char) : ∃ front slice ts, cs = front ++ slice ∧ Quoting.outside.Joins slice ∧
    Quoting.outside.after front = .outside ∧ (∀ t ∈ ts, t.stop < size front) ∧
      ∀ rest, gap 0 (front ++ rest) = ts ++ gap (size front) rest := by
  rcases joins_or_blank .outside cs with hjoins | ⟨front, b, slice, rfl, hout, hb, hjoins⟩
  · exact ⟨[], cs, [], rfl, hjoins, rfl, nofun, fun rest => rfl⟩
  · refine ⟨front ++ [b], slice, gap 0 front, by simp, hjoins, ?_, fun t ht => ?_, fun rest => ?_⟩
    · rw [Quoting.after_append, hout, Quoting.after_cons, next_blank hb, Quoting.after_nil]
    · have hstop := stop_le_of_mem_gap ht
      have hpos := width_pos b
      rw [size_append, size_cons]
      omega
    · have hrest := (cut_gap 0 front).append hout hb (cut_gap (0 + size front) (b :: rest))
      rw [List.append_assoc, List.singleton_append, hrest.gap_eq, gap, if_pos hb, size_append, size_cons, Nat.zero_add]
      rfl

end Token

end LineMatch
