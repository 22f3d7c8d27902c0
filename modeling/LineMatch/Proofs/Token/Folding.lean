/-
  LineMatch.Proofs.Token.Folding — words written as a line, and read again.

  Each word is written with a backslash before every quote and backslash, the quoted
  ones in quotes. A backslash escapes inside quotes only, so a quoted word is read as it
  was, and in any other each backslash comes out as two.

  Proved:
  - `inside_escaped`: inside quotes, reading undoes escaping.
  - `readsAs_written`: a word that is written is one slice, and closes its quotes.
  - `fits_of_mem`: what the tokens of a line have in common.
  - `tokens_fold`: such tokens, written as one line, are read as tokens one for one.
-/

import LineMatch.Proofs.Token.Composing

namespace LineMatch

open LineMatch.Text (isAsciiBlank)

namespace Token

/-- A line can hold the token: without quotes it is no empty text, and has no blank and
    no quote in it. -/
def Fits (t : Token) : Prop :=
  t.isQuoted = false → t.text ≠ "" ∧ ∀ c ∈ t.text.toList, isAsciiBlank c = false ∧ c ≠ '"'

/-- The text that is read of the token when it has been written into a line. -/
def reread (t : Token) : String :=
  if t.isQuoted then t.text
  else String.ofList (t.text.toList.flatMap fun c => if c = '\\' then ['\\', '\\'] else [c])

/-- What a token says, wherever it stands. -/
def content (t : Token) : String × Bool := (t.text, t.isQuoted)

variable {c : Char} {cs : List Char} {t : Token} {ts : List Token} {line : String}

/-! ## A word that is written -/

theorem escapeChars_cons : escapeChars (c :: cs) = (if c = '"' ∨ c = '\\' then ['\\', c] else [c]) ++ escapeChars cs :=
  List.flatMap_cons

/-- Inside quotes, reading undoes escaping and does not leave the quotes. -/
theorem inside_escaped (cs : List Char) : Quoting.inside.text (escapeChars cs) = cs ∧
    Quoting.inside.after (escapeChars cs) = .inside ∧ Quoting.inside.Joins (escapeChars cs) := by
  induction cs with
  | nil => exact ⟨rfl, rfl, trivial⟩
  | cons c cs ih =>
    obtain ⟨htext, hafter, hjoins⟩ := ih
    rw [escapeChars_cons]
    by_cases hc : c = '"' ∨ c = '\\'
    · rw [if_pos hc]
      refine ⟨?_, hafter, ⟨by simp, by simp [Quoting.next], hjoins⟩⟩
      rw [Quoting.text_append]
      exact congrArg (c :: ·) htext
    · obtain ⟨hquote, hslash⟩ := not_or.1 hc
      have hnext : Quoting.inside.next c = .inside := by simp [Quoting.next, hquote, hslash]
      rw [if_neg hc, List.singleton_append, Quoting.after_cons, Quoting.Joins, Quoting.text, hnext]
      exact ⟨by simp [Quoting.yield, hquote, hslash, htext], hafter, by simp, hjoins⟩

/-- The characters are read as one word with the text, and leave no quotes open. -/
structure ReadsAs (cs text : List Char) (isQuoted : Bool) : Prop where
  isSlice : IsSlice cs
  closed : Quoting.outside.after cs = .outside
  text : Quoting.outside.text cs = text
  hasMark : Quoting.outside.hasMark cs = isQuoted

/-- What stays inside quotes up to its end is one word between them, as it is read there. -/
theorem readsAs_inside (hafter : Quoting.inside.after cs = .inside) (hjoins : Quoting.inside.Joins cs) :
    ReadsAs ('"' :: (cs ++ ['"'])) (Quoting.inside.text cs) true := by
  have hnext : Quoting.outside.next '"' = .inside := rfl
  constructor
  case isSlice =>
    refine ⟨List.cons_ne_nil _ _, by decide, ?_⟩
    rw [hnext, Quoting.joins_append, hafter]
    exact ⟨hjoins, by decide, trivial⟩
  case closed =>
    rw [Quoting.after_cons, hnext, Quoting.after_append, hafter]
    rfl
  case text =>
    rw [Quoting.text, hnext, Quoting.text_append, hafter]
    exact List.append_nil _
  case hasMark => rfl

theorem readsAs_quoted (cs : List Char) : ReadsAs ('"' :: (escapeChars cs ++ ['"'])) cs true := by
  obtain ⟨htext, hafter, hjoins⟩ := inside_escaped cs
  have hreads := readsAs_inside hafter hjoins
  rwa [htext] at hreads

theorem joins_of_no_blank {q : Quoting} (h : ∀ c ∈ cs, isAsciiBlank c = false) : q.Joins cs := by
  induction cs generalizing q with
  | nil => trivial
  | cons c cs ih =>
    have hc := h c List.mem_cons_self
    exact ⟨by simp [hc], ih fun d hd => h d (List.mem_cons_of_mem _ hd)⟩

theorem readsAs_plain (hne : cs ≠ []) (h : ∀ c ∈ cs, isAsciiBlank c = false ∧ c ≠ '"') : ReadsAs cs cs false := by
  have hquote : '"' ∉ cs := fun hmem => (h _ hmem).2 rfl
  obtain ⟨hafter, htext, hmark⟩ := Quoting.outside_plain hquote
  exact ⟨⟨hne, joins_of_no_blank fun c hc => (h c hc).1⟩, hafter, htext, hmark⟩

theorem escapeChars_of_no_quote (h : '"' ∉ cs) :
    escapeChars cs = cs.flatMap fun c => if c = '\\' then ['\\', '\\'] else [c] := by
  induction cs with
  | nil => rfl
  | cons c cs ih =>
    rw [List.mem_cons, not_or] at h
    rw [escapeChars_cons, List.flatMap_cons, ih h.2]
    by_cases hc : c = '\\'
    · simp [hc]
    · simp [hc, Ne.symm h.1]

theorem mem_escapeChars (h : c ∈ escapeChars cs) : c ∈ cs ∨ c = '\\' := by
  obtain ⟨d, hd, hc⟩ := List.mem_flatMap.1 h
  split at hc
  · rcases List.mem_cons.1 hc with rfl | hc
    · exact .inr rfl
    · rw [List.mem_singleton.1 hc]
      exact .inl hd
  · rw [List.mem_singleton.1 hc]
    exact .inl hd

theorem escapeChars_ne_nil (h : cs ≠ []) : escapeChars cs ≠ [] := by
  rcases cs with _ | ⟨c, cs⟩
  · exact absurd rfl h
  · rw [escapeChars_cons]
    split <;> simp

theorem readsAs_written (h : t.Fits) : ReadsAs t.written.toList t.reread.toList t.isQuoted := by
  unfold written reread escape
  rcases hq : t.isQuoted with _ | _
  · obtain ⟨hne, hchars⟩ := h hq
    have hquote : '"' ∉ t.text.toList := fun hmem => (hchars _ hmem).2 rfl
    simp only [Bool.false_eq_true, if_false, String.toList_ofList]
    rw [← escapeChars_of_no_quote hquote]
    refine readsAs_plain (escapeChars_ne_nil fun he => hne (String.toList_eq_nil_iff.1 he)) fun c hc => ?_
    rcases mem_escapeChars hc with hmem | rfl
    · exact hchars c hmem
    · decide
  · have := readsAs_quoted t.text.toList
    simpa using this

/-! ## The tokens of a line -/

/-- A token of a line fits a line. -/
theorem fits_of_mem (ht : t ∈ tokens line) : t.Fits := by
  intro hplain
  have hstands := standsIn_of_mem ht
  have hquote : '"' ∉ (t.slice line).toList := by
    intro hmem
    rw [hstands.isQuoted_iff.2 hmem] at hplain
    cases hplain
  rw [hstands.text_of_not_isQuoted hplain]
  constructor
  · intro he
    obtain ⟨c, cs, hcons, -⟩ := hstands.begins
    rw [he] at hcons
    cases hcons
  · intro c hc
    refine ⟨?_, fun he => hquote (he ▸ hc)⟩
    obtain ⟨as, bs, heq⟩ := List.append_of_mem hc
    -- without a quote before it, a blank would end the word
    have has : '"' ∉ as := fun hmem => hquote (by rw [heq]; exact List.mem_append_left _ hmem)
    by_contra hblank
    rw [Bool.not_eq_false] at hblank
    exact hstands.joins as c bs heq hblank (Quoting.outside_plain has).1

end Token

open Token

variable {t u : Token} {ts : List Token}

theorem fold_cons_cons : fold (t :: u :: ts) = t.written ++ " " ++ fold (u :: ts) := by
  rw [fold, List.map_cons, List.map_cons, String.intercalate_cons_cons]
  rfl

theorem content_written (h : t.Fits) : (tokens t.written).map Token.content = [(t.reread, t.isQuoted)] := by
  have hreads := readsAs_written h
  rw [tokens, gap_whole hreads.isSlice, List.map_singleton, Token.content, ofSlice_text, ofSlice_isQuoted,
    hreads.text, hreads.hasMark, String.ofList_toList]

/-- Words written as one line are read as words one for one: each with its quotes and, but
    for backslashes outside quotes, which come out twice, with its text. The tokens of a
    line are such words. -/
theorem tokens_fold :
    (∀ line, ∀ t ∈ tokens line, t.Fits) ∧ ∀ ts : List Token, (∀ t ∈ ts, t.Fits) →
      (tokens (fold ts)).map Token.content = ts.map fun t => (t.reread, t.isQuoted) := by
  refine ⟨fun line t ht => fits_of_mem ht, fun ts h => ?_⟩
  induction ts with
  | nil => rfl
  | cons t ts ih =>
    have ht := h t List.mem_cons_self
    rcases ts with _ | ⟨u, ts⟩
    · have hfold : fold [t] = t.written := by simp [fold]
      rw [hfold, content_written ht]
      rfl
    · have hclosed : Closed t.written := (readsAs_written ht).closed
      have hrest := ih fun v hv => h v (List.mem_cons_of_mem _ hv)
      rw [fold_cons_cons, tokens_append hclosed (by decide) (by simp [isAsciiBlank]), List.map_append, content_written ht,
        List.map_map, List.map_cons, ← hrest]
      rfl

/-- A backslash outside quotes, a quoted quote and an empty word. -/
theorem fold_reread : (tokens (fold [⟨"C:\\dir", false, 0, 0⟩, ⟨"a \"b\"", true, 0, 0⟩, ⟨"", true, 0, 0⟩])).map
    Token.content = [("C:\\\\dir", false), ("a \"b\"", true), ("", true)] :=
  tokens_fold.2 [⟨"C:\\dir", false, 0, 0⟩, ⟨"a \"b\"", true, 0, 0⟩, ⟨"", true, 0, 0⟩] (by simp [Token.Fits, isAsciiBlank])

end LineMatch
