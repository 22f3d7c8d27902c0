/-
  LineMatch.Proofs.Script.Alone — a value between blanks of a script.

  The symbols of a script around a value between blanks are those before it, that of the
  value and those after it. What the word of the value stands for depends on whether it
  begins with a tilde.

  Proved:
  - `symbols_alone`: a value between blanks is one word, or none if the value is empty.
  - `fields_valueMarks`, `fields_home`: the word stands for the value, but a tilde that
    begins it can stand for the home directory.
  - `value_alone`: both, of a reference. `empty_value_vanishes` shows values that do not
    arrive.
-/

import LineMatch.Proofs.Script.Literal
import LineMatch.Proofs.Script.Symbol

namespace LineMatch.Script

/-! ## The marks of a value -/

section

variable {fresh : Bool} {c : Char} {value : List Char}

theorem endsWord_of_inert (h : isActive c = false) : endsWord c = false := by
  refine Bool.eq_false_iff.2 fun hc => ?_
  simp only [endsWord, List.contains_eq_mem, List.mem_cons, List.not_mem_nil, or_false, decide_eq_true_eq] at hc
  rcases hc with rfl | rfl | rfl | rfl | rfl | rfl | rfl | rfl | rfl | rfl <;> exact absurd h (by decide)

theorem place_shellChar :
    (Place.inText .bare fresh).after (Escape.shellChar c) = .inText .bare false ∧
      (Place.inText .bare fresh).reads (Escape.shellChar c) = charMarks c := by
  rw [shellChar_eq, charMarks]
  split
  · next h =>
    subst h
    cases fresh <;> exact ⟨rfl, rfl⟩
  split
  · next hline _ =>
    simp [Place.next, Place.reads, Place.yield, Place.after, Quoting.next, Quoting.yield, hline, endsWord]
  · next h =>
    have hinert := Bool.eq_false_iff.2 h
    have hhash : c ≠ '#' := by
      rintro rfl
      exact absurd hinert (by decide)
    simp [Place.next, Place.reads, Place.yield, Place.after, Quoting.next, Quoting.yield,
      not_quote_of_inert hinert, hhash, endsWord_of_inert hinert]

theorem place_value :
    (Place.inText .bare fresh).after (Escape.shell.apply value) = .inText .bare (fresh && value.isEmpty) ∧
      (Place.inText .bare fresh).reads (Escape.shell.apply value) = valueMarks value := by
  induction value generalizing fresh with
  | nil => simp [Escape.apply, valueMarks, Place.after, Place.reads]
  | cons c value ih =>
    obtain ⟨hafter, hreads⟩ := @place_shellChar fresh c
    have hcons : Escape.shell.apply (c :: value) = Escape.shellChar c ++ Escape.shell.apply value := rfl
    rw [hcons, Place.after_append, Place.reads_append, hafter, hreads, ih.1, ih.2]
    exact ⟨by simp, rfl⟩

theorem mem_valueMarks {m : Mark} (h : m ∈ valueMarks value) :
    m = .opening ∨ ∃ c, m = .literal c ∨ (m = .bare c ∧ isActive c = false) := by
  obtain ⟨c, -, hc⟩ := List.mem_flatMap.1 h
  exact (mem_charMarks hc).imp_right fun h => ⟨c, h⟩

theorem valueMarks_eq_nil : valueMarks value = [] ↔ value = [] := by
  refine ⟨fun h => ?_, fun h => h ▸ rfl⟩
  rcases value with _ | ⟨c, value⟩
  · rfl
  · simp only [valueMarks, List.flatMap_cons, List.append_eq_nil_iff, charMarks] at h
    split at h
    · cases h.1
    · split at h <;> cases h.1

/-- Blanks around a value are read as they are without it. -/
theorem marks_alone {before after : List Char} (hplace : Place.start.after before = .start)
    (hafter : BeginsBlank after) :
    marks (before ++ (Escape.shell.apply value ++ after)) =
      (marks after).map fun ms => Place.start.reads before ++ (valueMarks value ++ ms) := by
  have hvalue := @place_value true value
  have hmarks (cs : List Char) : marks cs = Place.start.marks? cs := rfl
  have hmiddle : Place.start.marks? (Escape.shell.apply value ++ after) =
      (marks after).map (valueMarks value ++ ·) := by
    rw [Place.marks?_append, Place.start, hvalue.1, hvalue.2, marks?_of_beginsBlank hafter]
  rw [hmarks, Place.marks?_append, hplace, hmiddle, Option.map_map]
  rfl

end

/-! ## The symbols around a value -/

section

variable {value before after : List Char} {m : Mark}

theorem isPart_of_mem_valueMarks (h : m ∈ valueMarks value) : m.IsPart := by
  rintro c rfl
  rcases mem_valueMarks h with h | ⟨d, h | ⟨h, hd⟩⟩
  · cases h
  · cases h
  · cases h
    exact endsWord_of_inert hd

theorem not_backquote_of_mem_valueMarks (h : m ∈ valueMarks value) : isBackquote m = false := by
  rcases mem_valueMarks h with rfl | ⟨d, rfl | ⟨rfl, hd⟩⟩
  · rfl
  · rfl
  · have hne : d ≠ '`' := by
      rintro rfl
      exact absurd hd (by decide)
    simp [isBackquote, hne]

theorem symbols?_ofList {cs : List Char} : symbols? (String.ofList cs) =
    (marks cs).bind fun ms => if ms.any isBackquote then none else some (symbolsFrom [] ms) := by
  rw [symbols?, String.toList_ofList]

/-- The symbols of a value between blanks. -/
def valueSymbols (value : List Char) : List Symbol :=
  if value = [] then [] else [.word (valueMarks value)]

theorem endWord_valueMarks : endWord (valueMarks value).reverse [] = valueSymbols value := by
  rw [endWord, valueSymbols, List.isEmpty_reverse, List.reverse_reverse]
  simp only [List.isEmpty_iff, valueMarks_eq_nil]

/-- A value between blanks is one word, or none if it is empty. -/
theorem symbols_alone (hplace : Place.start.after before = .start) (hbefore : EndsBlank before)
    (hafter : BeginsBlank after) :
    symbols? (String.ofList (before ++ (Escape.shell.apply value ++ after))) =
      (symbols? (String.ofList before)).bind fun ss =>
        (symbols? (String.ofList after)).map fun rs => ss ++ (valueSymbols value ++ rs) := by
  have hmarks : marks before = some (Place.start.reads before) := by
    have h : marks (before ++ []) = some (Place.start.reads before ++ []) := by
      rw [marks, ← Place.marks?, ← Place.start, Place.marks?_append, hplace]
      rfl
    rwa [List.append_nil, List.append_nil] at h
  have hvalue : (valueMarks value).any isBackquote = false :=
    List.any_eq_false.2 fun m hm => Bool.eq_false_iff.1 (not_backquote_of_mem_valueMarks hm)
  rw [symbols?_ofList, symbols?_ofList, symbols?_ofList, marks_alone hplace hafter, hmarks, Option.bind_some]
  rcases hms : marks after with _ | ms
  · simp
  have hparts (m : Mark) (h : m ∈ valueMarks value) : m.IsPart := isPart_of_mem_valueMarks h
  have hsymbols := symbolsFrom_between hparts (reads_of_endsBlank hbefore hplace) (marks_of_beginsBlank hafter hms)
  rw [endWord_valueMarks] at hsymbols
  simp only [Option.map_some, Option.bind_some, List.any_append, hvalue, Bool.false_or, hsymbols]
  rcases (Place.start.reads before).any isBackquote <;> rcases ms.any isBackquote <;> rfl

end

/-! ## What the word stands for -/

section

variable {lookup : String → String} {w : Word} {value rest : List Char} {gs : List Glyph} {m : Mark}

/-- A mark that refers to no value. -/
def Mark.IsPlain (m : Mark) : Prop := m ≠ .bare '$' ∧ m ≠ .double '$'

theorem isPlain_literal {c : Char} : (Mark.literal c).IsPlain := ⟨by simp, by simp⟩

theorem isPlain_opening : Mark.opening.IsPlain := ⟨by simp, by simp⟩

theorem start_of_isPlain (h : m.IsPlain) : m.start.2 = .none ∧ m.start.1.flatMap Glyph.chars = m.char?.toList ∧
    Glyph.gap ∉ m.start.1 ∧ m.start.1 ≠ [] := by
  cases m with
  | bare c =>
    have hc : c ≠ '$' := fun he => h.1 (he ▸ rfl)
    simp [Mark.start, hc, Glyph.chars, Mark.char?]
  | double c =>
    have hc : c ≠ '$' := fun he => h.2 (he ▸ rfl)
    simp [Mark.start, hc, Glyph.chars, Mark.char?]
  | literal c | opening => simp [Mark.start, Glyph.chars, Mark.char?]

theorem glyphsFrom_plain (h : ∀ m ∈ w, m.IsPlain) : glyphsFrom lookup .none w = w.flatMap (·.start.1) := by
  induction w with
  | nil => rfl
  | cons m w ih =>
    have hm := (start_of_isPlain (h m List.mem_cons_self)).1
    rw [glyphsFrom, Pending.step, hm, ih fun n hn => h n (List.mem_cons_of_mem _ hn), List.flatMap_cons]

theorem splitGaps_of_no_gap (h : Glyph.gap ∉ gs) : splitGaps gs = (gs, []) := by
  induction gs with
  | nil => rfl
  | cons g gs ih =>
    rw [List.mem_cons, not_or] at h
    rw [splitGaps, ih h.2]
    exact if_neg (Ne.symm h.1)

theorem chars_plain (h : ∀ m ∈ w, m.IsPlain) :
    (w.flatMap (·.start.1)).flatMap Glyph.chars = w.filterMap Mark.char? := by
  induction w with
  | nil => rfl
  | cons m w ih =>
    have hm := (start_of_isPlain (h m List.mem_cons_self)).2.1
    rw [List.flatMap_cons, List.flatMap_append, hm, ih fun n hn => h n (List.mem_cons_of_mem _ hn),
      List.filterMap_cons]
    rcases m.char? <;> rfl

/-- A word that refers to no value is one field. -/
theorem fields_plain (h : ∀ m ∈ expandTilde lookup w, m.IsPlain) (hne : expandTilde lookup w ≠ []) :
    fields lookup w = [String.ofList ((expandTilde lookup w).filterMap Mark.char?)] := by
  have hgap : Glyph.gap ∉ (expandTilde lookup w).flatMap (·.start.1) := fun hg => by
    obtain ⟨m, hm, hg⟩ := List.mem_flatMap.1 hg
    exact (start_of_isPlain (h m hm)).2.2.1 hg
  have hglyphs : ((expandTilde lookup w).flatMap (·.start.1)).isEmpty = false := by
    obtain ⟨m, ms, he⟩ := List.exists_cons_of_ne_nil hne
    have hm := (start_of_isPlain (h m (he ▸ List.mem_cons_self))).2.2.2
    simp [he, hm]
  rw [fields, glyphs, glyphsFrom_plain h, splitGaps_of_no_gap hgap]
  simp [hglyphs, glyphText, chars_plain h]

theorem isPlain_of_mem_valueMarks (h : m ∈ valueMarks value) : m.IsPlain := by
  rcases mem_valueMarks h with rfl | ⟨c, rfl | ⟨rfl, hc⟩⟩
  · exact isPlain_opening
  · exact isPlain_literal
  · refine ⟨?_, by simp⟩
    rintro ⟨⟩
    exact absurd hc (by decide)

theorem filterMap_valueMarks : (valueMarks value).filterMap Mark.char? = value := by
  induction value with
  | nil => rfl
  | cons c value ih =>
    have hc := (isLiteral_shellChar (c := c)).reads
    rw [reads_shellChar] at hc
    rw [valueMarks, List.flatMap_cons, List.filterMap_append, hc]
    exact congrArg _ ih

theorem expandTilde_of_ne (h : w.head? ≠ some (.bare '~')) : expandTilde lookup w = w := by
  unfold expandTilde
  split
  · exact absurd rfl h
  · rfl

theorem head?_valueMarks (h : value.head? ≠ some '~') : (valueMarks value).head? ≠ some (.bare '~') := by
  rcases value with _ | ⟨c, value⟩
  · simp [valueMarks]
  · have hc : c ≠ '~' := fun he => h (he ▸ rfl)
    simp only [valueMarks, List.flatMap_cons, charMarks]
    split
    · simp
    · split <;> simp [hc]

/-- The word of a value that does not begin with a tilde stands for the value. -/
theorem fields_valueMarks (hne : value ≠ []) (h : value.head? ≠ some '~') :
    fields lookup (valueMarks value) = [String.ofList value] := by
  have htilde : expandTilde lookup (valueMarks value) = valueMarks value := expandTilde_of_ne (head?_valueMarks h)
  rw [fields_plain, htilde, filterMap_valueMarks]
  · rw [htilde]
    exact fun _ => isPlain_of_mem_valueMarks
  · rw [htilde]
    exact fun he => hne (valueMarks_eq_nil.1 he)

theorem expandTilde_home (hrest : rest = [] ∨ rest.head? = some '/') (hhome : lookup "HOME" ≠ "") :
    expandTilde lookup (valueMarks ('~' :: rest)) = (lookup "HOME").toList.map .literal ++ valueMarks rest := by
  have hmarks : valueMarks ('~' :: rest) = .bare '~' :: valueMarks rest := rfl
  rw [hmarks]
  rcases hrest with rfl | hrest
  · simp [expandTilde, valueMarks, hhome]
  · rcases rest with _ | ⟨c, rest⟩
    · cases hrest
    · cases hrest
      have hslash : valueMarks ('/' :: rest) = .bare '/' :: valueMarks rest := rfl
      simp [expandTilde, hslash, hhome]

/-- The word of a tilde, alone or before a slash, stands for the home directory. -/
theorem fields_home (hrest : rest = [] ∨ rest.head? = some '/') (hhome : lookup "HOME" ≠ "") :
    fields lookup (valueMarks ('~' :: rest)) = [lookup "HOME" ++ String.ofList rest] := by
  have htilde := expandTilde_home hrest hhome
  have hchars : ((lookup "HOME").toList.map Mark.literal).filterMap Mark.char? = (lookup "HOME").toList := by
    simp [List.filterMap_map, Function.comp_def, Mark.char?]
  rw [fields_plain, htilde, List.filterMap_append, filterMap_valueMarks, hchars]
  · simp
  · rw [htilde]
    intro m hm
    rcases List.mem_append.1 hm with hm | hm
    · obtain ⟨c, -, rfl⟩ := List.mem_map.1 hm
      exact isPlain_literal
    · exact isPlain_of_mem_valueMarks hm
  · rw [htilde]
    simp [hhome]

end

/-! ## References that stand alone -/

/-- A reference between `before` and `after` is outside quotes and comments, with blanks or
    the ends of the script around it. -/
structure StandsAlone (value : List Char → List Char) (before after : List Piece) : Prop where
  place : Place.start.after (before.flatMap (Piece.put value)) = .start
  left : ∀ p ∈ before.getLast?, ∃ b, p = .char b ∧ isSplitBlank b = true
  right : ∀ p ∈ after.head?, ∃ b, p = .char b ∧ isSplitBlank b = true

section

variable {s : Scope} {script v : String} {before after : List Piece} {name : List Char}
  {value : List Char → List Char}

theorem StandsAlone.endsBlank (h : StandsAlone value before after) :
    EndsBlank (before.flatMap (Piece.put value)) := by
  intro c hc
  rcases hlast : before.getLast? with _ | p
  · rw [List.getLast?_eq_none_iff.1 hlast] at hc
    cases hc
  · obtain ⟨b, rfl, hb⟩ := h.left p hlast
    obtain ⟨ps, rfl⟩ := List.getLast?_eq_some_iff.1 hlast
    rw [List.flatMap_append, List.flatMap_cons, List.flatMap_nil, Piece.put, List.append_nil,
      List.getLast?_concat] at hc
    cases hc
    exact hb

theorem StandsAlone.beginsBlank (h : StandsAlone value before after) :
    BeginsBlank (after.flatMap (Piece.put value)) := by
  intro c hc
  rcases after with _ | ⟨p, after⟩
  · cases hc
  · obtain ⟨b, rfl, hb⟩ := h.right p rfl
    cases hc
    exact hb

/-- The symbols of a script around a reference that stands alone. Its value is one word that
    stands for the value, if the value is not empty and does not begin with a tilde: an empty
    one is no word, and a tilde alone or before a slash stands for the home directory. -/
theorem value_alone (hscript : pieces script.toList = before ++ .reference name :: after)
    (halone : StandsAlone (s.substitute .shell) before after)
    (hv : (s.value? (String.ofList name)).getD "" = v) :
    (symbols? (expand s .shell script) =
      (symbols? (String.ofList (before.flatMap (Piece.put (s.substitute .shell))))).bind fun ss =>
        (symbols? (String.ofList (after.flatMap (Piece.put (s.substitute .shell))))).map fun rs =>
          ss ++ (valueSymbols v.toList ++ rs)) ∧
    (v = "" → valueSymbols v.toList = []) ∧
    (v ≠ "" → valueSymbols v.toList = [.word (valueMarks v.toList)]) ∧
    (v ≠ "" → v.toList.head? ≠ some '~' → ∀ lookup, fields lookup (valueMarks v.toList) = [v]) ∧
    (∀ rest, v.toList = '~' :: rest → (rest = [] ∨ rest.head? = some '/') → ∀ lookup, lookup "HOME" ≠ "" →
      fields lookup (valueMarks v.toList) = [lookup "HOME" ++ String.ofList rest]) := by
  have hput : s.substitute .shell name = Escape.shell.apply v.toList := by rw [Scope.substitute, hv]
  have hwritten : expand s .shell script = String.ofList (before.flatMap (Piece.put (s.substitute .shell)) ++
      (Escape.shell.apply v.toList ++ after.flatMap (Piece.put (s.substitute .shell)))) := by
    rw [expand, expandWith_eq, hscript, List.flatMap_append, List.flatMap_cons, Piece.put, hput]
  have hlist (h : v ≠ "") : v.toList ≠ [] := fun he => h (String.toList_eq_nil_iff.1 he)
  refine ⟨?_, ?_, ?_, ?_, ?_⟩
  · rw [hwritten]
    exact symbols_alone halone.place halone.endsBlank halone.beginsBlank
  · rintro rfl
    rfl
  · exact fun h => if_neg (hlist h)
  · intro h htilde lookup
    rw [fields_valueMarks (hlist h) htilde, String.ofList_toList]
  · intro rest hrest hshape lookup hhome
    rw [hrest]
    exact fields_home hshape hhome

end

namespace Sample

def holding (v : String) : Scope := { session := { grammar := default, vars := [("value", v)] } }

def printing : String := "printf '[%s]' a ${value} b"

theorem pieces_printing : pieces printing.toList =
    "printf '[%s]' a ".toList.map .char ++ .reference "value".toList :: " b".toList.map .char := by
  simp [printing, pieces, splitAtBrace]

theorem printing_alone (v : String) : StandsAlone ((holding v).substitute .shell)
    ("printf '[%s]' a ".toList.map .char) (" b".toList.map .char) where
  place := by rw [flatMap_put_char]; decide
  left := by
    rintro p ⟨⟩
    exact ⟨' ', rfl, rfl⟩
  right := by
    rintro p ⟨⟩
    exact ⟨' ', rfl, rfl⟩

/-- The fields that the words of a script stand for, with a home directory. -/
def printed (script : String) : Option (List String) :=
  (symbols? script).map fun ss => ss.flatMap fun
    | .word w => fields (fun _ => "/root") w
    | _ => []

end Sample

open Script.Sample in
theorem quoted_value_arrives :
    pieces printing.toList =
      "printf '[%s]' a ".toList.map .char ++ .reference "value".toList :: " b".toList.map .char ∧
    StandsAlone ((holding "it's\n; *").substitute .shell) ("printf '[%s]' a ".toList.map .char)
      (" b".toList.map .char) ∧
    fields (fun _ => "/root") (valueMarks "it's\n; *".toList) = ["it's\n; *"] :=
  ⟨pieces_printing, printing_alone _,
    (value_alone (s := holding "it's\n; *") pieces_printing (printing_alone _) rfl).2.2.2.1 (by decide)
      (by decide) _⟩

open Script.Sample in
/-- An empty value is no word, and a tilde is the home directory. -/
theorem empty_value_vanishes :
    StandsAlone ((holding "").substitute .shell) ("printf '[%s]' a ".toList.map .char) (" b".toList.map .char) ∧
    printed (expand (holding "") .shell printing) = some ["printf", "[%s]", "a", "b"] ∧
    printed (expand (holding "~") .shell printing) = some ["printf", "[%s]", "a", "/root", "b"] := by
  have hput (v : String) : expand (holding v) .shell printing =
      String.ofList ("printf '[%s]' a ".toList ++ (Escape.shell.apply v.toList ++ " b".toList)) := by
    rw [expand, expandWith_eq, pieces_printing, List.flatMap_append, List.flatMap_cons, flatMap_put_char,
      flatMap_put_char]
    rfl
  refine ⟨printing_alone _, ?_, ?_⟩
  · rw [hput]
    decide
  · rw [hput]
    decide

end LineMatch.Script
