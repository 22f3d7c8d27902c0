/-
  LineMatch.Proofs.Token.Spread — lines made of parts with blanks between them.

  Where each part is read as one word, the words of the line are those of its parts. In
  any line reading drops the marks of quotes, and backslashes inside them, but no other
  character that is no blank. So such characters can be counted.

  Proved:
  - `Spread.texts_gap`: the words of a line whose parts are read as one word each.
  - `count_texts`: the words hold a character as often as reading leaves it.
  - `Quoting.count_marks_le`: each quote that is left costs a backslash that is not.
  - `Quoting.no_slash_of_kept`: inside quotes no backslash is kept of all.
-/

import LineMatch.Proofs.Token.Folding

namespace LineMatch

open LineMatch.Text (isAsciiBlank size)

namespace Token

/-! ## What reading leaves -/

namespace Quoting

variable {q : Quoting} {c : Char} {cs : List Char}

/-- Each quote that reading leaves was behind a backslash that it does not leave. -/
theorem count_marks_le (q : Quoting) (cs : List Char) :
    (q.text cs).count '"' + (q.text cs).count '\\' ≤ cs.count '\\' + if q = .escaped then 1 else 0 := by
  induction cs generalizing q with
  | nil => simp [text]
  | cons c cs ih =>
    have hrest := ih (q.next c)
    rw [text, List.count_append, List.count_append, List.count_cons]
    by_cases hquote : c = '"'
    · subst hquote
      cases q <;> simp [next, yield] at hrest ⊢ <;> omega
    by_cases hslash : c = '\\'
    · subst hslash
      cases q <;> simp [next, yield] at hrest ⊢ <;> omega
    · cases q <;> simp [next, yield, hquote, hslash] at hrest ⊢ <;> omega

/-- Reading leaves some of the characters, in their order. -/
theorem text_sublist (q : Quoting) (cs : List Char) : (q.text cs).Sublist cs := by
  induction cs generalizing q with
  | nil => exact List.Sublist.refl _
  | cons c cs ih =>
    have hyield : (q.yield c).Sublist [c] := by
      cases q with
      | outside => by_cases hc : c = '"' <;> simp [yield, hc]
      | inside => by_cases hc : c = '"' ∨ c = '\\' <;> simp [yield, hc]
      | escaped => exact List.Sublist.refl _
    exact hyield.append (ih (q.next c))

/-- Where all of a character is left of a text, it is left of both parts of the text. -/
theorem kept_of_append {as bs : List Char} (h : (q.text (as ++ bs)).count c = (as ++ bs).count c) :
    (q.text as).count c = as.count c ∧ ((q.after as).text bs).count c = bs.count c := by
  have has := (text_sublist q as).count_le c
  have hbs := (text_sublist (q.after as) bs).count_le c
  rw [text_append, List.count_append, List.count_append] at h
  omega

/-- Of a text without quotes that is read inside quotes, not all backslashes are left. -/
theorem no_slash_of_kept (hquote : '"' ∉ cs) (h : (inside.text cs).count '\\' = cs.count '\\') : '\\' ∉ cs := by
  induction cs with
  | nil => simp
  | cons c cs ih =>
    rw [List.mem_cons, not_or] at hquote
    by_cases hslash : c = '\\'
    · subst hslash
      have hrest := (text_sublist escaped cs).count_le '\\'
      have htext : inside.text ('\\' :: cs) = escaped.text cs := rfl
      rw [htext, List.count_cons_self] at h
      omega
    · have hnext : inside.next c = .inside := by simp [next, Ne.symm hquote.1, hslash]
      have hyield : inside.yield c = [c] := by simp [yield, Ne.symm hquote.1, hslash]
      rw [text, hnext, hyield, List.singleton_append, List.count_cons_of_ne hslash, List.count_cons_of_ne hslash] at h
      simp [Ne.symm hslash, ih hquote.2 h]

end Quoting

variable {pos : Nat} {c : Char} {cs : List Char} {ts : List Token}

theorem Cut.count_texts (h : Cut pos cs ts) (hc : isAsciiBlank c = false) :
    (ts.flatMap fun t => t.text.toList).count c = (Quoting.outside.text cs).count c := by
  induction h with
  | nil => rfl
  | @blank pos b cs ts hb _ ih =>
    have hne : b ≠ c := by
      intro he
      rw [he, hc] at hb
      cases hb
    have hyield : Quoting.outside.yield b = [b] := by simp [Quoting.yield, (Quoting.ne_of_blank hb).1]
    rw [ih, Quoting.text, Quoting.next_blank hb, hyield, List.singleton_append, List.count_cons_of_ne hne]
  | @slice pos slice rest ts hslice hstops _ ih =>
    have hrest : (Quoting.outside.after slice).text rest = Quoting.outside.text rest := by
      rcases rest with _ | ⟨b, rest⟩
      · rfl
      · rw [hstops.1]
    rw [List.flatMap_cons, List.count_append, ih, ofSlice_text, String.toList_ofList, Quoting.text_append,
      List.count_append, hrest]

/-- The words of a text hold a character that is no blank as often as reading leaves it. -/
theorem count_texts (hc : isAsciiBlank c = false) :
    ((gap pos cs).flatMap fun t => t.text.toList).count c = (Quoting.outside.text cs).count c :=
  (cut_gap pos cs).count_texts hc

/-! ## Parts with blanks between them -/

/-- A text is what stands for each of the `xs`, with blanks before, between and after them. -/
inductive Spread {α : Type} (f : α → List Char) : List α → List Char → Prop
  | nil {bs : List Char} : (∀ b ∈ bs, isAsciiBlank b = true) → Spread f [] bs
  | cons {x : α} {xs : List α} {bs rest : List Char} :
      (∀ b ∈ bs, isAsciiBlank b = true) → Quoting.outside.Stops rest → Spread f xs rest →
        Spread f (x :: xs) (bs ++ (f x ++ rest))

variable {α : Type} {f : α → List Char} {xs : List α}

theorem not_mem_of_blanks (hc : isAsciiBlank c = false) (h : ∀ b ∈ cs, isAsciiBlank b = true) : c ∉ cs := by
  intro hmem
  rw [h c hmem] at hc
  cases hc

theorem gap_all_blank (h : ∀ b ∈ cs, isAsciiBlank b = true) : gap pos cs = [] := by
  have hgap : gap pos (cs ++ []) = gap (pos + size cs) [] := gap_blanks h
  rwa [List.append_nil] at hgap

/-- Parts that are read as one word each are the words. -/
theorem Spread.texts_gap {text : α → String} (h : Spread f xs cs)
    (hreads : ∀ x ∈ xs, ∃ isQuoted, ReadsAs (f x) (text x).toList isQuoted) :
    (gap pos cs).map Token.text = xs.map text := by
  induction h generalizing pos with
  | nil hbs => rw [gap_all_blank hbs, List.map_nil, List.map_nil]
  | @cons x xs bs rest hbs hstops _ ih =>
    obtain ⟨isQuoted, hx⟩ := hreads x List.mem_cons_self
    have hafter : (Quoting.outside.after (f x)).Stops rest := by rw [hx.closed]; exact hstops
    rw [gap_blanks hbs, gap_slice hx.isSlice hafter, List.map_cons, List.map_cons, ofSlice_text, hx.text,
      String.ofList_toList, ih fun y hy => hreads y (List.mem_cons_of_mem _ hy)]

theorem Spread.count (h : Spread f xs cs) (hc : isAsciiBlank c = false) : cs.count c = (xs.flatMap f).count c := by
  induction h with
  | nil hbs => rw [List.count_eq_zero.2 (not_mem_of_blanks hc hbs), List.flatMap_nil, List.count_nil]
  | cons hbs _ _ ih =>
    rw [List.count_append, List.count_append, List.count_eq_zero.2 (not_mem_of_blanks hc hbs), ih, List.flatMap_cons,
      List.count_append, Nat.zero_add]

end Token

end LineMatch
