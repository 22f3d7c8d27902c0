/-
  LineMatch.Proofs.Script.Symbol — reading around blanks.

  Reading a script with its comments goes from place to place (`Place`). A blank outside
  quotes and comments is read in the same way whatever stands before it, and ends the
  symbols before it.

  Proved:
  - `Place.marks?_append`: the marks of a script are those up to a place and those from there.
  - `marks?_of_beginsBlank`: before a blank it does not matter whether a word has begun.
  - `symbolsFrom_append`: a blank ends the symbols before it.
  - `symbolsFrom_between`: marks between blanks that end no word are one word.
-/

import LineMatch.Script.Field

namespace LineMatch.Script

/-! ## Reading with comments -/

/-- Where reading stands in a script. -/
inductive Place where
  /-- Outside comments; `fresh` says that no word has begun. -/
  | inText (q : Quoting) (fresh : Bool)
  | inComment
  deriving DecidableEq, Repr

namespace Place

def start : Place := inText .bare true

def next : Place → Char → Place
  | inText q fresh, c =>
    if q = .bare ∧ fresh ∧ c = '#' then inComment else inText (q.next c) (q == .bare && endsWord c)
  | inComment, c => if c = '\n' then start else inComment

/-- What is left of a character. -/
def yield : Place → Char → List Mark
  | inText q fresh, c => if q = .bare ∧ fresh ∧ c = '#' then [] else q.yield c
  | inComment, c => if c = '\n' then [.bare c] else []

def after (p : Place) (cs : List Char) : Place := cs.foldl next p

def reads : Place → List Char → List Mark
  | _, [] => []
  | p, c :: cs => p.yield c ++ reads (p.next c) cs

/-- The marks of a script from some place on. -/
def marks? : Place → List Char → Option (List Mark)
  | inText q fresh, cs => marksFrom q fresh cs
  | inComment, cs => comment cs

variable {p : Place} {c : Char} {as bs cs : List Char}

@[simp] theorem after_cons : p.after (c :: cs) = (p.next c).after cs := rfl

theorem after_append : p.after (as ++ bs) = (p.after as).after bs := List.foldl_append

theorem reads_append : p.reads (as ++ bs) = p.reads as ++ (p.after as).reads bs := by
  induction as generalizing p with
  | nil => rfl
  | cons c as ih => rw [List.cons_append, reads, ih, reads, List.append_assoc, after_cons]

theorem marks?_cons : p.marks? (c :: cs) = ((p.next c).marks? cs).map (p.yield c ++ ·) := by
  cases p with
  | inText q fresh =>
    simp only [marks?, next, yield, marksFrom]
    split
    · simp
    · rfl
  | inComment =>
    simp only [marks?, next, yield, comment]
    split
    · rfl
    · simp

theorem marks?_append : p.marks? (as ++ bs) = ((p.after as).marks? bs).map (p.reads as ++ ·) := by
  induction as generalizing p with
  | nil => simp [after, reads]
  | cons c as ih =>
    rw [List.cons_append, marks?_cons, ih, Option.map_map, after_cons]
    exact congrArg (Option.map · _) (funext fun ms => by simp [reads])

end Place

/-! ## Blanks -/

section

variable {p : Place} {b : Char} {cs : List Char} {fresh : Bool}

/-- A text that is empty or begins with a blank. -/
def BeginsBlank (cs : List Char) : Prop := ∀ b ∈ cs.head?, isSplitBlank b = true

/-- A text that is empty or ends with a blank. -/
def EndsBlank (cs : List Char) : Prop := ∀ b ∈ cs.getLast?, isSplitBlank b = true

theorem ne_of_isSplitBlank {c : Char} (hb : isSplitBlank b = true) (hc : isSplitBlank c = false) : b ≠ c := by
  rintro rfl
  rw [hb] at hc
  cases hc

/-- A blank after which reading stands as at the start is itself outside quotes. -/
theorem yield_blank (hb : isSplitBlank b = true) (h : p.next b = .start) : p.yield b = [.bare b] := by
  have hquote : b ≠ '\\' ∧ b ≠ '\'' ∧ b ≠ '"' :=
    ⟨ne_of_isSplitBlank hb rfl, ne_of_isSplitBlank hb rfl, ne_of_isSplitBlank hb rfl⟩
  have hhash : b ≠ '#' := ne_of_isSplitBlank hb rfl
  cases p with
  | inText q fresh =>
    simp only [Place.next, hhash, and_false, if_false, Place.start, Place.inText.injEq, Bool.and_eq_true,
      beq_iff_eq] at h
    simp [Place.yield, hhash, h.2.1, Quoting.yield, hquote]
  | inComment =>
    by_cases hline : b = '\n'
    · simp [Place.yield, hline]
    · simp [Place.next, hline, Place.start] at h

theorem next_blank (hb : isSplitBlank b = true) : (Place.inText .bare fresh).next b = .start := by
  simp only [isSplitBlank, Bool.or_eq_true, beq_iff_eq] at hb
  rcases hb with (rfl | rfl) | rfl <;> cases fresh <;> rfl

/-- Before a blank it does not matter whether a word has begun. -/
theorem marks?_of_beginsBlank (h : BeginsBlank cs) : (Place.inText .bare fresh).marks? cs = marks cs := by
  have hmarks : marks cs = Place.start.marks? cs := rfl
  rcases cs with _ | ⟨b, cs⟩
  · rfl
  · have hb := h b rfl
    have hnext : Place.start.next b = .start := next_blank hb
    rw [hmarks, Place.marks?_cons, Place.marks?_cons, next_blank hb, hnext, yield_blank hb (next_blank hb),
      yield_blank hb hnext]

theorem marks_of_beginsBlank {ms : List Mark} (h : BeginsBlank cs) (hms : marks cs = some ms) (hne : ms ≠ []) :
    ∃ b rest, isSplitBlank b = true ∧ ms = .bare b :: rest := by
  rcases cs with _ | ⟨b, cs⟩
  · cases hms
    exact absurd rfl hne
  · have hb := h b rfl
    have hyield : Place.start.yield b = [.bare b] := yield_blank hb (next_blank hb)
    have hmarks : marks (b :: cs) = Place.start.marks? (b :: cs) := rfl
    rw [hmarks, Place.marks?_cons, hyield] at hms
    obtain ⟨rest, -, rfl⟩ := Option.map_eq_some_iff.1 hms
    exact ⟨b, rest, hb, rfl⟩

theorem reads_of_endsBlank (h : EndsBlank cs) (hplace : p.after cs = .start) (hne : p.reads cs ≠ []) :
    ∃ ms b, isSplitBlank b = true ∧ p.reads cs = ms ++ [.bare b] := by
  rcases hlast : cs.getLast? with _ | b
  · rw [List.getLast?_eq_none_iff.1 hlast] at hne
    exact absurd rfl hne
  · obtain ⟨as, rfl⟩ := List.getLast?_eq_some_iff.1 hlast
    have hb := h b hlast
    rw [Place.after_append] at hplace
    refine ⟨p.reads as, b, hb, ?_⟩
    rw [Place.reads_append, Place.reads, yield_blank hb hplace]
    rfl

end

/-! ## Symbols around blanks -/

section

variable {word w : Word} {ms rest : List Mark} {b c : Char} {m : Mark} {xs ys : List Symbol}

/-- A mark that neither ends a word nor is an operator. -/
def Mark.IsPart (m : Mark) : Prop := ∀ c, m = .bare c → endsWord c = false

theorem endWord_nil : endWord [] xs = xs := rfl

theorem endWord_append : endWord word (xs ++ ys) = endWord word xs ++ ys := by
  unfold endWord
  split <;> rfl

theorem endWord_cons_append {x : Symbol} : endWord word (x :: (xs ++ ys)) = endWord word (x :: xs) ++ ys :=
  @endWord_append word (x :: xs) ys

theorem endStream_append {isInput : Bool} :
    endStream word isInput (xs ++ ys) = endStream word isInput xs ++ ys := by
  unfold endStream
  split
  · rfl
  · exact endWord_cons_append

theorem symbolsFrom_part (h : m.IsPart) : symbolsFrom word (m :: ms) = symbolsFrom (m :: word) ms := by
  have hm : ∀ c, m = .bare c → endsWord c = true → False := fun c he hc => by simp [h c he] at hc
  rw [symbolsFrom] <;> intros <;> exact hm _ (by assumption) (by decide)

theorem symbolsFrom_parts (h : ∀ m ∈ w, m.IsPart) :
    symbolsFrom word (w ++ ms) = symbolsFrom (w.reverse ++ word) ms := by
  induction w generalizing word with
  | nil => rfl
  | cons m w ih =>
    rw [List.cons_append, symbolsFrom_part (h m List.mem_cons_self),
      ih fun n hn => h n (List.mem_cons_of_mem _ hn), List.reverse_cons, List.append_assoc]
    rfl

theorem symbolsFrom_blank (hb : isSplitBlank b = true) :
    symbolsFrom word (.bare b :: rest) = endWord word (symbolsFrom [] (.bare b :: rest)) := by
  simp only [isSplitBlank, Bool.or_eq_true, beq_iff_eq] at hb
  rcases hb with (rfl | rfl) | rfl <;> simp [symbolsFrom, endWord_nil]

/-- A blank does not make an operator longer. -/
theorem not_begins (h : ∀ ms', ms = .bare c :: ms' → False) (hne : b ≠ c) (ms' : List Mark) :
    ms ++ .bare b :: rest = .bare c :: ms' → False := by
  intro he
  rcases ms with _ | ⟨m, ms⟩
  · cases he
    exact hne rfl
  · cases he
    exact h ms rfl

/-- A blank ends the symbols before it. -/
theorem symbolsFrom_append (hb : isSplitBlank b = true) :
    symbolsFrom word (ms ++ .bare b :: rest) = symbolsFrom word (ms ++ [.bare b]) ++ symbolsFrom [] rest := by
  have hsemicolon : b ≠ ';' := ne_of_isSplitBlank hb rfl
  have hampersand : b ≠ '&' := ne_of_isSplitBlank hb rfl
  have hbar : b ≠ '|' := ne_of_isSplitBlank hb rfl
  have hgreater : b ≠ '>' := ne_of_isSplitBlank hb rfl
  -- the cases that need work are the operators that the next mark could make longer
  fun_induction symbolsFrom word ms
  case case1 =>
    simp only [isSplitBlank, Bool.or_eq_true, beq_iff_eq] at hb
    rcases hb with (rfl | rfl) | rfl <;> simp [symbolsFrom, endWord_nil, ← endWord_append]
  case case6 h ih =>
    rw [List.cons_append, List.cons_append, symbolsFrom, symbolsFrom, ih, endWord_cons_append]
    all_goals exact not_begins h hsemicolon
  case case8 h ih =>
    rw [List.cons_append, List.cons_append, symbolsFrom, symbolsFrom, ih, endWord_cons_append]
    all_goals exact not_begins h hampersand
  case case10 h ih =>
    rw [List.cons_append, List.cons_append, symbolsFrom, symbolsFrom, ih, endWord_cons_append]
    all_goals exact not_begins h hbar
  case case15 h h' ih =>
    rw [List.cons_append, List.cons_append, symbolsFrom, symbolsFrom, ih, endStream_append]
    · exact not_begins h hgreater
    · exact not_begins h' hampersand
    · exact not_begins h hgreater
    · exact not_begins h' hampersand
  case case17 m ms _ _ _ _ _ _ _ _ _ _ _ _ _ _ _ ih =>
    have hpart : m.IsPart := by
      rintro c rfl
      simp [endsWord]
      grind
    rw [List.cons_append, List.cons_append, symbolsFrom_part hpart, symbolsFrom_part hpart, ih]
  all_goals simp only [List.cons_append, symbolsFrom, *, endWord_append, endWord_cons_append, endStream_append]

/-- The symbols of a word between blanks. -/
theorem symbolsFrom_between {as bs : List Mark} (hw : ∀ m ∈ w, m.IsPart)
    (has : as ≠ [] → ∃ ms b, isSplitBlank b = true ∧ as = ms ++ [.bare b])
    (hbs : bs ≠ [] → ∃ b ms, isSplitBlank b = true ∧ bs = .bare b :: ms) :
    symbolsFrom [] (as ++ (w ++ bs)) = symbolsFrom [] as ++ (endWord w.reverse [] ++ symbolsFrom [] bs) := by
  have hafter : symbolsFrom [] (w ++ bs) = endWord w.reverse [] ++ symbolsFrom [] bs := by
    rw [symbolsFrom_parts hw, List.append_nil]
    by_cases hne : bs = []
    · rw [hne]
      simp [symbolsFrom, endWord_nil]
    · obtain ⟨b, ms, hb, rfl⟩ := hbs hne
      rw [symbolsFrom_blank hb, ← endWord_append, List.nil_append]
  by_cases hne : as = []
  · rw [hne, List.nil_append, hafter]
    rfl
  · obtain ⟨ms, b, hb, rfl⟩ := has hne
    rw [List.append_assoc, List.singleton_append, symbolsFrom_append hb, hafter]

end

end LineMatch.Script
