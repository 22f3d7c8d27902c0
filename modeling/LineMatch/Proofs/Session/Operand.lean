/-
  LineMatch.Proofs.Session.Operand — references in quotes in a test.

  A test is often written word by word: words that stand for themselves and references in
  quotes, with blanks between them. Values are put in before the test is split into words,
  so a value is read inside the quotes around its reference: a quote in it closes them, and
  a backslash takes the next character along. A value that is inside them to its end is one
  word, and without quotes and backslashes it is this word itself.

  Proved:
  - `spread_expanded`: the expanded test has the expanded operands with blanks between them.
  - `readsAs_expanded`: an operand whose value stays inside its quotes is one word.
  - `unmarked_of_texts`: if all operands are the words that are meant, no value has a quote
    or a backslash.
  - `quoted_operands`: so the words of a test are those that are meant just then.
-/

import LineMatch.Proofs.Session.Expanding
import LineMatch.Proofs.Token.Spread

namespace LineMatch

open LineMatch.Text (isAsciiBlank)
open LineMatch.Token

/-- A word that stands for itself in a test: no blank ends it, and neither expansion nor
    quoting changes it. -/
def IsLiteralWord (text : String) : Prop :=
  text ≠ "" ∧ ∀ c ∈ text.toList, isAsciiBlank c = false ∧ c ≠ '$' ∧ c ≠ '"' ∧ c ≠ '\\'

instance (text : String) : Decidable (IsLiteralWord text) :=
  @instDecidableAnd _ _ inferInstance (List.decidableBAll _ _)

/-- A word of a test as it is written: as it stands, or a reference in quotes. -/
inductive Operand where
  | literal (text : String) (isWord : IsLiteralWord text)
  | quoted (name : String) (isName : '}' ∉ name.toList)

namespace Operand

def source : Operand → List Char
  | literal text _ => text.toList
  | quoted name _ => '"' :: ((referenceTo name).toList ++ ['"'])

/-- The word that is meant: the text itself or the whole value. -/
def word (s : Scope) : Operand → String
  | literal text _ => text
  | quoted name _ => (s.value? name).getD ""

/-- What the source becomes when the test is expanded. -/
def expanded (s : Scope) : Operand → List Char
  | literal text _ => text.toList
  | quoted name _ => '"' :: (((s.value? name).getD "").toList ++ ['"'])

/-- The value is read inside the quotes around it up to its end, with no blank outside. -/
def StaysInside (s : Scope) : Operand → Prop
  | literal _ _ => True
  | quoted name _ =>
    Quoting.inside.after ((s.value? name).getD "").toList = .inside ∧
      Quoting.inside.Joins ((s.value? name).getD "").toList

/-- The word that is read then. -/
def wordRead (s : Scope) : Operand → String
  | literal text _ => text
  | quoted name _ => String.ofList (Quoting.inside.text ((s.value? name).getD "").toList)

end Operand

/-- A word without a quote and without a backslash. -/
def IsUnmarked (w : String) : Prop := '"' ∉ w.toList ∧ '\\' ∉ w.toList

instance (w : String) : Decidable (IsUnmarked w) := inferInstanceAs (Decidable (_ ∧ _))

variable {s : Scope} {op : Operand} {ops : List Operand} {cs : List Char}

/-! ## Expanding -/

theorem stops_expandWith {value : List Char → List Char} (h : Quoting.outside.Stops cs) :
    Quoting.outside.Stops (expandWith value cs) := by
  rcases cs with _ | ⟨c, cs⟩
  · simp [expandWith, Quoting.Stops]
  · have hc : '$' ∉ [c] := by
      intro hmem
      have hblank := h.2
      rw [← List.mem_singleton.1 hmem] at hblank
      cases hblank
    have hkept : expandWith value (c :: cs) = c :: expandWith value cs := expandWith_text hc cs
    rw [hkept]
    exact h

theorem expandWith_source (op : Operand) (rest : List Char) :
    expandWith (s.substitute .raw) (op.source ++ rest) = op.expanded s ++ expandWith (s.substitute .raw) rest := by
  cases op with
  | literal text isWord =>
    have hdollar : '$' ∉ text.toList := fun hmem => (isWord.2 _ hmem).2.1 rfl
    exact expandWith_text hdollar rest
  | quoted name isName =>
    have hsource : (Operand.quoted name isName).source ++ rest =
        ['"'] ++ '$' :: '{' :: (name.toList ++ '}' :: (['"'] ++ rest)) := by
      simp [Operand.source, toList_referenceTo]
    rw [hsource, expandWith_text (by decide), expandWith_reference isName, expandWith_text (by decide)]
    simp [Operand.expanded, Scope.substitute, Escape.apply]

theorem spread_expanded (h : Spread Operand.source ops cs) :
    Spread (Operand.expanded s) ops (expandWith (s.substitute .raw) cs) := by
  induction h with
  | @nil bs hbs =>
    have hkept : expandWith (s.substitute .raw) bs = bs := by
      have happend : expandWith (s.substitute .raw) (bs ++ []) = bs ++ expandWith (s.substitute .raw) [] :=
        expandWith_text (not_mem_of_blanks rfl hbs) []
      simpa [expandWith] using happend
    rw [hkept]
    exact .nil hbs
  | cons hbs hstops _ ih =>
    rw [expandWith_text (not_mem_of_blanks rfl hbs), expandWith_source]
    exact .cons hbs (stops_expandWith hstops) ih

/-! ## Values that are one word -/

theorem escapeChars_of_unmarked (hquote : '"' ∉ cs) (hslash : '\\' ∉ cs) : escapeChars cs = cs := by
  induction cs with
  | nil => rfl
  | cons c cs ih =>
    rw [List.mem_cons, not_or] at hquote hslash
    have hc : ¬ (c = '"' ∨ c = '\\') := not_or.2 ⟨Ne.symm hquote.1, Ne.symm hslash.1⟩
    rw [escapeChars_cons, if_neg hc, ih hquote.2 hslash.2, List.singleton_append]

/-- An operand that stays inside its quotes is one word. -/
theorem readsAs_expanded (h : op.StaysInside s) :
    ∃ isQuoted, ReadsAs (op.expanded s) (op.wordRead s).toList isQuoted := by
  cases op with
  | literal text isWord =>
    have hne : text.toList ≠ [] := fun he => isWord.1 (String.toList_eq_nil_iff.1 he)
    exact ⟨false, readsAs_plain hne fun c hc => ⟨(isWord.2 c hc).1, (isWord.2 c hc).2.2.1⟩⟩
  | quoted name isName =>
    have hreads := readsAs_inside h.1 h.2
    rw [← String.toList_ofList (l := Quoting.inside.text _)] at hreads
    exact ⟨true, hreads⟩

/-- Without quotes and backslashes a value stays inside its quotes, and is read as it is. -/
theorem staysInside_of_unmarked (h : IsUnmarked (op.word s)) : op.StaysInside s ∧ op.wordRead s = op.word s := by
  cases op with
  | literal text isWord => exact ⟨trivial, rfl⟩
  | quoted name isName =>
    have hkept : escapeChars ((s.value? name).getD "").toList = ((s.value? name).getD "").toList :=
      escapeChars_of_unmarked h.1 h.2
    have hinside := inside_escaped ((s.value? name).getD "").toList
    rw [hkept] at hinside
    obtain ⟨htext, hafter, hjoins⟩ := hinside
    refine ⟨⟨hafter, hjoins⟩, ?_⟩
    show String.ofList (Quoting.inside.text ((s.value? name).getD "").toList) = (s.value? name).getD ""
    rw [htext, String.ofList_toList]

theorem texts_of_staysInside (h : Spread (Operand.expanded s) ops cs) (hstays : ∀ op ∈ ops, op.StaysInside s) :
    (gap 0 cs).map Token.text = ops.map (Operand.wordRead s) :=
  h.texts_gap fun op hop => readsAs_expanded (hstays op hop)

theorem texts_of_unmarked (h : Spread (Operand.expanded s) ops cs) (hwords : ∀ op ∈ ops, IsUnmarked (op.word s)) :
    (gap 0 cs).map Token.text = ops.map (Operand.word s) := by
  rw [texts_of_staysInside h fun op hop => (staysInside_of_unmarked (hwords op hop)).1]
  exact List.map_congr_left fun op hop => (staysInside_of_unmarked (hwords op hop)).2

/-! ## Values that are not -/

/-- What stands around a value has no backslash of its own. -/
theorem count_slash_expanded : (op.expanded s).count '\\' = (op.word s).toList.count '\\' := by
  cases op with
  | literal text isWord => rfl
  | quoted name isName => simp [Operand.expanded, Operand.word]

/-- If the words of a test are the words of its operands, no value in it has a quote: to be left
    in a word, each quote would use up a backslash, and all of those are left as well. -/
theorem no_quote_of_texts (h : Spread (Operand.expanded s) ops cs)
    (htexts : (gap 0 cs).map Token.text = ops.map (Operand.word s)) :
    (Quoting.outside.text cs).count '\\' = cs.count '\\' ∧ ∀ op ∈ ops, '"' ∉ (op.word s).toList := by
  have hcount : ∀ c, isAsciiBlank c = false →
      (Quoting.outside.text cs).count c = (ops.flatMap fun op => (op.word s).toList).count c := by
    intro c hc
    have hflat := congrArg (List.flatMap String.toList) htexts
    rw [List.flatMap_map, List.flatMap_map] at hflat
    have hleft : ((gap 0 cs).flatMap fun t => t.text.toList).count c = (Quoting.outside.text cs).count c :=
      count_texts hc
    rw [← hleft, hflat]
  have hslash : cs.count '\\' = (ops.flatMap fun op => (op.word s).toList).count '\\' := by
    rw [h.count (by decide), List.count_flatMap, List.count_flatMap]
    exact congrArg List.sum (List.map_congr_left fun op _ => count_slash_expanded)
  have hkept : (Quoting.outside.text cs).count '\\' = cs.count '\\' := by rw [hcount _ (by decide), hslash]
  refine ⟨hkept, ?_⟩
  have hmarks := Quoting.count_marks_le .outside cs
  rw [if_neg (by decide), hkept, hcount _ (by decide)] at hmarks
  have hnone : '"' ∉ ops.flatMap fun op => (op.word s).toList := by
    rw [← List.count_eq_zero]
    omega
  intro op hop hmem
  exact hnone (List.mem_flatMap.2 ⟨op, hop, hmem⟩)

theorem no_slash_of_expanded_kept (hquote : '"' ∉ (op.word s).toList)
    (hkept : (Quoting.outside.text (op.expanded s)).count '\\' = (op.expanded s).count '\\') :
    '\\' ∉ (op.word s).toList := by
  cases op with
  | literal text isWord => exact fun hmem => (isWord.2 _ hmem).2.2.2 rfl
  | quoted name isName =>
    have hinside : (Quoting.inside.text (((s.value? name).getD "").toList ++ ['"'])).count '\\' =
        (((s.value? name).getD "").toList ++ ['"']).count '\\' := by
      have htext : Quoting.outside.text ((Operand.quoted name isName).expanded s) =
          Quoting.inside.text (((s.value? name).getD "").toList ++ ['"']) := rfl
      rw [htext, count_slash_expanded] at hkept
      simpa [Operand.word] using hkept
    exact Quoting.no_slash_of_kept hquote (Quoting.kept_of_append hinside).1

/-- Without a quote in the values, a backslash in one is read inside the quotes around it, and
    is not left. -/
theorem no_slash_of_kept (h : Spread (Operand.expanded s) ops cs) (hquote : ∀ op ∈ ops, '"' ∉ (op.word s).toList)
    (hkept : (Quoting.outside.text cs).count '\\' = cs.count '\\') : ∀ op ∈ ops, '\\' ∉ (op.word s).toList := by
  induction h with
  | nil _ => exact nofun
  | @cons op ops bs rest hbs _ _ ih =>
    have hparts := (Quoting.kept_of_append hkept).2
    rw [(Quoting.outside_plain (not_mem_of_blanks rfl hbs)).1] at hparts
    obtain ⟨hop, hrest⟩ := Quoting.kept_of_append hparts
    have hword := hquote op List.mem_cons_self
    have hslash := no_slash_of_expanded_kept hword hop
    -- so this operand is its word, and what follows is read outside quotes again
    obtain ⟨_, hreads⟩ := readsAs_expanded (staysInside_of_unmarked ⟨hword, hslash⟩).1
    rw [hreads.closed] at hrest
    intro p hp
    rcases List.mem_cons.1 hp with he | hp
    · exact he ▸ hslash
    · exact ih (fun p hp => hquote p (List.mem_cons_of_mem _ hp)) hrest p hp

theorem unmarked_of_texts (h : Spread (Operand.expanded s) ops cs)
    (htexts : (gap 0 cs).map Token.text = ops.map (Operand.word s)) : ∀ op ∈ ops, IsUnmarked (op.word s) := by
  obtain ⟨hkept, hquote⟩ := no_quote_of_texts h htexts
  intro op hop
  exact ⟨hquote op hop, no_slash_of_kept h hquote hkept op hop⟩

/-! ## Tests -/

/-- The words of a test written with references in quotes are the words that are meant just if
    none of these has a quote or a backslash, and then the test is judged by them: such values
    do not add, remove, join or split words. No more do those that only stay inside their quotes,
    but they are not read as they are. -/
theorem quoted_operands {test : String} (h : Spread Operand.source ops test.toList) :
    ((tokens (expand s .raw test)).map Token.text = ops.map (Operand.word s) ↔ ∀ op ∈ ops, IsUnmarked (op.word s)) ∧
    ((∀ op ∈ ops, IsUnmarked (op.word s)) →
      Condition.holds s test = Condition.holdsWords (ops.map (Operand.word s))) ∧
    ((∀ op ∈ ops, op.StaysInside s) →
      (tokens (expand s .raw test)).map Token.text = ops.map (Operand.wordRead s)) := by
  have hspread : Spread (Operand.expanded s) ops (expand s .raw test).toList := by
    unfold expand
    rw [String.toList_ofList]
    exact spread_expanded h
  refine ⟨⟨unmarked_of_texts hspread, texts_of_unmarked hspread⟩, fun hplain => ?_, texts_of_staysInside hspread⟩
  have hwords : (tokens (expand s .raw test)).map Token.text = ops.map (Operand.word s) :=
    texts_of_unmarked hspread hplain
  unfold Condition.holds
  rw [hwords]

namespace Sample

/-- A test that is meant for one role. -/
def gate : String := "\"$\x7brole\x7d\" = admin"

def gateOperands : List Operand :=
  [.quoted "role" (by decide), .literal "=" (by decide), .literal "admin" (by decide)]

def ofRole (role : String) : Scope := { session := { grammar := default, vars := [("role", role)] } }

theorem spread_gate : Spread Operand.source gateOperands gate.toList := by
  have hgate : gate.toList = [] ++ ((Operand.quoted "role" (by decide)).source ++ ([' '] ++ (['='] ++ ([' '] ++
      ("admin".toList ++ []))))) := by decide
  rw [hgate]
  have hnone : ∀ b ∈ ([] : List Char), isAsciiBlank b = true := nofun
  have hspace : ∀ b ∈ [' '], isAsciiBlank b = true := by simp [isAsciiBlank]
  exact .cons hnone ⟨rfl, rfl⟩ (.cons hspace ⟨rfl, rfl⟩ (.cons hspace trivial (.nil hnone)))

end Sample

open Sample in
/-- A value that would be a test of its own is one word, and no such role. -/
theorem gate_keeps_words :
    Spread Operand.source gateOperands gate.toList ∧
    (∀ op ∈ gateOperands, IsUnmarked (op.word (ofRole "admin = admin"))) ∧
    (tokens (expand (ofRole "admin = admin") .raw gate)).map Token.text = ["admin = admin", "=", "admin"] ∧
    Condition.holds (ofRole "admin = admin") gate = false := by
  have hplain : ∀ op ∈ gateOperands, IsUnmarked (op.word (ofRole "admin = admin")) := by decide
  obtain ⟨hwords, hholds, _⟩ := quoted_operands (s := ofRole "admin = admin") spread_gate
  refine ⟨spread_gate, hplain, hwords.2 hplain, ?_⟩
  rw [hholds hplain]
  decide

open Sample in
/-- A value that is a quote opens the gate for another role. -/
theorem gate_opened :
    Spread Operand.source gateOperands gate.toList ∧ Condition.holds (ofRole "\"") gate = true ∧
    Condition.holdsWords (gateOperands.map (Operand.word (ofRole "\""))) = false := by
  refine ⟨spread_gate, ?_, by decide⟩
  have hexpanded : expand (ofRole "\"") .raw gate = "\"\"\" = admin" := by
    simp [gate, ofRole, expand, expandWith, splitAtBrace, Scope.substitute, Scope.value?, Scope.commandName,
      Session.var?, Escape.apply]
  rw [Condition.holds, hexpanded]
  decide

end LineMatch
