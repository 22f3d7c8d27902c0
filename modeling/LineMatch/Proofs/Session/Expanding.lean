/-
  LineMatch.Proofs.Session.Expanding — texts expanded part by part.

  A text can be cut before it is expanded where no reference is cut: the part in front
  closes the references that it opens (`ClosesReferences`), and its last character and the
  first behind it open none (`MeetInReference`). With what becomes of a reference alone,
  of a text without references and of one that is never closed, this is all there is to
  expansion (`Expands`): no value is looked into, and none joins what stands around it.

  Proved:
  - `splitAtBrace_eq_some_iff`, `splitAtBrace_eq_none_iff`: the name of a reference ends at
    the first closing brace.
  - `pieces_append`: a text that is cut so has the pieces of its parts.
  - `standsFor_iff`: the look-up of a name goes through store, command and variables.
  - `expands_expand`, `Expands.unique`: expansion has its laws, and no other function has them.
  - `expand_piecewise`: so it is, and each value is put in its place as it is.
-/

import LineMatch.Proofs.Session.Reference

namespace LineMatch

variable {value : List Char → List Char} {as bs cs name rest : List Char} {c : Char}

/-! ## The pieces of a text that is cut -/

theorem splitAtBrace_eq_some_iff : splitAtBrace cs = some (name, rest) ↔ '}' ∉ name ∧ cs = name ++ '}' :: rest := by
  induction cs generalizing name with
  | nil => simp [splitAtBrace]
  | cons c cs ih =>
    unfold splitAtBrace
    by_cases hc : c = '}'
    · rw [if_pos hc]
      cases name with
      | nil => simp [hc, eq_comm]
      | cons d name =>
        simp only [Option.some.injEq, Prod.mk.injEq, List.cons_append, List.cons.injEq]
        constructor
        · intro h
          cases h.1
        · rintro ⟨hname, hd, _⟩
          rw [← hd, hc] at hname
          exact absurd List.mem_cons_self hname
    · rw [if_neg hc]
      cases name with
      | nil => simp [hc]
      | cons d name =>
        rw [Option.map_eq_some_iff]
        constructor
        · rintro ⟨p, hp, he⟩
          cases he
          obtain ⟨hname, hcs⟩ := ih.1 hp
          exact ⟨by simp [hname, Ne.symm hc], by rw [hcs, List.cons_append]⟩
        · rintro ⟨hname, he⟩
          rw [List.cons_append, List.cons.injEq] at he
          rw [he.1]
          exact ⟨(name, rest), ih.2 ⟨fun hmem => hname (List.mem_cons_of_mem _ hmem), he.2⟩, rfl⟩

theorem splitAtBrace_eq_none_iff : splitAtBrace cs = none ↔ '}' ∉ cs := by
  induction cs with
  | nil => simp [splitAtBrace]
  | cons c cs ih =>
    unfold splitAtBrace
    by_cases hc : c = '}'
    · simp [hc]
    · simp [hc, ih, Ne.symm hc]

/-- After each `$` before an opening brace comes a closing one. -/
def ClosesReferences (cs : List Char) : Prop := ∀ before after, cs = before ++ '$' :: '{' :: after → '}' ∈ after

/-- A reference begins with the last character of one text and the first of the other. -/
def MeetInReference (as bs : List Char) : Prop := as.getLast? = some '$' ∧ bs.head? = some '{'

theorem meetInReference_singleton : MeetInReference [c] cs ↔ ∃ ds, c = '$' ∧ cs = '{' :: ds := by
  unfold MeetInReference
  constructor
  · intro ⟨hc, hhead⟩
    rcases cs with _ | ⟨d, ds⟩
    · cases hhead
    · exact ⟨ds, Option.some.inj hc, by rw [Option.some.inj hhead]⟩
  · intro ⟨ds, hc, hcs⟩
    rw [hc, hcs]
    exact ⟨rfl, rfl⟩

theorem ClosesReferences.of_append (h : ClosesReferences (as ++ bs)) : ClosesReferences bs := by
  intro before after heq
  exact h (as ++ before) after (by rw [heq, List.append_assoc])

theorem pieces_reference (h : '}' ∉ name) :
    pieces ('$' :: '{' :: (name ++ '}' :: cs)) = .reference name :: pieces cs := by
  have hsplit : splitAtBrace (name ++ '}' :: cs) = some (name, cs) := splitAtBrace_eq_some_iff.2 ⟨h, rfl⟩
  rw [pieces]
  split
  · next hs =>
    rw [hsplit] at hs
    cases hs
    rfl
  · next hs =>
    rw [hsplit] at hs
    cases hs

theorem pieces_unclosed (h : '}' ∉ cs) : pieces ('$' :: '{' :: cs) = ('$' :: '{' :: cs).map .char := by
  have hsplit : splitAtBrace cs = none := splitAtBrace_eq_none_iff.2 h
  rw [pieces]
  split
  · next hs =>
    rw [hsplit] at hs
    cases hs
  · rfl

theorem pieces_char (h : ¬ MeetInReference [c] cs) : pieces (c :: cs) = .char c :: pieces cs := by
  rw [pieces]
  intro ds hc hcs
  exact h (meetInReference_singleton.2 ⟨ds, hc, hcs⟩)

/-- A text that is cut, but not in a reference, has the pieces of its parts. -/
theorem pieces_append (hcloses : ClosesReferences as) (hmeet : ¬ MeetInReference as bs) :
    pieces (as ++ bs) = pieces as ++ pieces bs := by
  fun_induction pieces as with
  | case1 => rfl
  | case2 cs name rest hsplit ih =>
    obtain ⟨hname, rfl⟩ := splitAtBrace_eq_some_iff.1 hsplit
    have hsource : '$' :: '{' :: (name ++ '}' :: rest) = '$' :: '{' :: (name ++ ['}']) ++ rest := by simp
    have hrest : ¬ MeetInReference rest bs := by
      intro ⟨hlast, hhead⟩
      refine hmeet ⟨?_, hhead⟩
      rw [hsource, List.getLast?_append, hlast]
      rfl
    have happend : '$' :: '{' :: (name ++ '}' :: rest) ++ bs = '$' :: '{' :: (name ++ '}' :: (rest ++ bs)) := by simp
    rw [hsource] at hcloses
    rw [happend, pieces_reference hname, ih hcloses.of_append hrest, List.cons_append]
  | case3 cs hsplit => exact absurd (hcloses [] cs rfl) (splitAtBrace_eq_none_iff.1 hsplit)
  | case4 c cs hopens ih =>
    have hsource : c :: cs = [c] ++ cs := rfl
    rw [hsource] at hcloses
    have hchar : ¬ MeetInReference [c] (cs ++ bs) := by
      intro h
      obtain ⟨ds, hc, hds⟩ := meetInReference_singleton.1 h
      rcases cs with _ | ⟨d, cs⟩
      · exact hmeet (meetInReference_singleton.2 ⟨ds, hc, hds⟩)
      · rw [List.cons_append, List.cons.injEq] at hds
        exact hopens cs hc (by rw [hds.1])
    have hcs : ¬ MeetInReference cs bs := by
      intro ⟨hlast, hhead⟩
      refine hmeet ⟨?_, hhead⟩
      rw [hsource, List.getLast?_append, hlast]
      rfl
    rw [List.cons_append, pieces_char hchar, ih hcloses.of_append hcs, List.cons_append]

/-- A text in which no reference begins is characters only. -/
theorem pieces_plain (h : ¬ ['$', '{'] <:+: cs) : pieces cs = cs.map .char := by
  induction cs with
  | nil => simp [pieces]
  | cons c cs ih =>
    have hchar : ¬ MeetInReference [c] cs := by
      intro hmeet
      obtain ⟨ds, hc, hcs⟩ := meetInReference_singleton.1 hmeet
      exact h ⟨[], ds, by rw [hc, hcs]; rfl⟩
    rw [pieces_char hchar, ih fun hwithin => h (hwithin.trans (List.suffix_cons c cs).isInfix), List.map_cons]

theorem expandWith_append (hcloses : ClosesReferences as) (hmeet : ¬ MeetInReference as bs) :
    expandWith value (as ++ bs) = expandWith value as ++ expandWith value bs := by
  rw [expandWith_eq, expandWith_eq, expandWith_eq, pieces_append hcloses hmeet, List.flatMap_append]

/-- A text without `$` is kept in front of any other. -/
theorem expandWith_text (h : '$' ∉ as) (bs : List Char) : expandWith value (as ++ bs) = as ++ expandWith value bs := by
  have hcloses : ClosesReferences as := by
    intro before after heq
    exact absurd (by rw [heq]; simp) h
  have hmeet : ¬ MeetInReference as bs := fun hm => h (List.mem_of_getLast? hm.1)
  have hplain : ¬ ['$', '{'] <:+: as := fun hi => h (hi.subset List.mem_cons_self)
  rw [expandWith_append hcloses hmeet, expandWith_eq value as, pieces_plain hplain, flatMap_put_char]

theorem expandWith_reference (h : '}' ∉ name) :
    expandWith value ('$' :: '{' :: (name ++ '}' :: cs)) = value name ++ expandWith value cs := by
  rw [expandWith_eq, pieces_reference h, List.flatMap_cons, expandWith_eq]
  rfl

/-! ## What a name stands for -/

/-- A name is not recorded. -/
def Scope.Lacks (s : Scope) (name : String) : Prop := ∀ store, s.store? = some store → store.value? name = none

/-- What a name stands for: what is recorded for it, else for one name the name of the command,
    else a variable; and nothing where there is none. -/
inductive Scope.StandsFor (s : Scope) (name : String) : String → Prop
  | recorded {store : Store} {v : String} :
      s.store? = some store → store.value? name = some v → StandsFor s name v
  | ofCommand : s.Lacks name → name = commandName → StandsFor s name ((s.command?.map Command.name).getD "")
  | ofSession : s.Lacks name → name ≠ commandName → StandsFor s name ((s.session.var? name).getD "")

theorem Scope.lacks_iff {s : Scope} {name : String} : s.Lacks name ↔ s.store?.bind (·.value? name) = none := by
  unfold Lacks
  rw [Option.bind_eq_none_iff]

/-- A name stands for what a look-up gives. -/
theorem Scope.standsFor_iff {s : Scope} {name v : String} : s.StandsFor name v ↔ v = (s.value? name).getD "" := by
  unfold value?
  rcases hstore : s.store?.bind (·.value? name) with _ | u
  · have hlacks := lacks_iff.2 hstore
    rw [Option.none_or]
    constructor
    · intro h
      cases h with
      | recorded hs hu => cases (hlacks _ hs).symm.trans hu
      | ofCommand _ hname => rw [if_pos hname]
      | ofSession _ hname => rw [if_neg hname]
    · intro h
      by_cases hname : name = commandName
      · rw [if_pos hname] at h
        exact h ▸ .ofCommand hlacks hname
      · rw [if_neg hname] at h
        exact h ▸ .ofSession hlacks hname
  · obtain ⟨store, hs, hu⟩ := Option.bind_eq_some_iff.1 hstore
    rw [Option.some_or, Option.getD_some]
    constructor
    · intro h
      cases h with
      | recorded hs' hu' =>
        cases hs.symm.trans hs'
        exact Option.some.inj (hu'.symm.trans hu)
      | ofCommand hlacks _ => cases (hlacks _ hs).symm.trans hu
      | ofSession hlacks _ => cases (hlacks _ hs).symm.trans hu
    · intro h
      exact h ▸ .recorded hs hu

/-! ## The laws of expansion -/

/-- A value as it is put into a text. -/
def Escape.written (e : Escape) (v : String) : String := String.ofList (e.apply v.toList)

/-- The reference to a name. -/
def referenceTo (name : String) : String := "$\x7b" ++ name ++ "\x7d"

/-- The laws of expansion. -/
structure Expands (s : Scope) (e : Escape) (f : String → String) : Prop where
  append (a b : String) : ClosesReferences a.toList → ¬ MeetInReference a.toList b.toList → f (a ++ b) = f a ++ f b
  plain (text : String) : ¬ ['$', '{'] <:+: text.toList → f text = text
  reference (name v : String) : '}' ∉ name.toList → s.StandsFor name v → f (referenceTo name) = e.written v
  unclosed (rest : String) : '}' ∉ rest.toList → f ("$\x7b" ++ rest) = "$\x7b" ++ rest

theorem toList_referenceTo (name : String) : (referenceTo name).toList = '$' :: '{' :: (name.toList ++ ['}']) := by
  unfold referenceTo
  rw [String.toList_append, String.toList_append]
  rfl

/-- Where a reference begins or ends, no other begins. -/
theorem not_meet_before (as : List Char) (name after : String) :
    ¬ MeetInReference as (referenceTo name ++ after).toList := by
  intro ⟨_, hhead⟩
  rw [String.toList_append, toList_referenceTo] at hhead
  cases hhead

theorem not_meet_behind (name : String) (bs : List Char) : ¬ MeetInReference (referenceTo name).toList bs := by
  intro ⟨hlast, _⟩
  rw [toList_referenceTo, ← List.cons_append, ← List.cons_append, List.getLast?_concat] at hlast
  cases hlast

/-- A reference closes itself, whatever its name begins. -/
theorem closes_referenceTo (name : String) : ClosesReferences (referenceTo name).toList := by
  intro before after heq
  have hlast : (referenceTo name).toList.getLast? = some '}' := by
    rw [toList_referenceTo, ← List.cons_append, ← List.cons_append, List.getLast?_concat]
  rcases List.eq_nil_or_concat after with hnil | ⟨front, d, hafter⟩
  · rw [heq, hnil, List.getLast?_append] at hlast
    cases hlast
  · rw [heq, hafter, List.concat_eq_append, ← List.cons_append, ← List.cons_append, ← List.append_assoc,
      List.getLast?_concat] at hlast
    rw [hafter, Option.some.inj hlast]
    simp

variable {s : Scope} {e : Escape}

theorem expand_append {a b : String} (hcloses : ClosesReferences a.toList)
    (hmeet : ¬ MeetInReference a.toList b.toList) : expand s e (a ++ b) = expand s e a ++ expand s e b := by
  unfold expand
  rw [String.toList_append, expandWith_append hcloses hmeet, String.ofList_append]

theorem expand_of_chars {text : String} (h : pieces text.toList = text.toList.map .char) : expand s e text = text := by
  apply String.toList_inj.1
  rw [toList_expand, h, flatMap_put_char]

theorem expand_referenceTo {name v : String} (hname : '}' ∉ name.toList) (hv : s.StandsFor name v) :
    expand s e (referenceTo name) = e.written v := by
  apply String.toList_inj.1
  rw [toList_expand, toList_referenceTo, pieces_reference hname]
  simp [pieces, Piece.put, Scope.substitute, Escape.written, Scope.standsFor_iff.1 hv]

theorem expands_expand (s : Scope) (e : Escape) : Expands s e (expand s e) where
  append _ _ hcloses hmeet := expand_append hcloses hmeet
  plain _ h := expand_of_chars (pieces_plain h)
  reference _ _ hname hv := expand_referenceTo hname hv
  unclosed rest h := by
    refine expand_of_chars ?_
    rw [String.toList_append]
    exact pieces_unclosed h

theorem closes_singleton (c : Char) : ClosesReferences [c] := by
  intro before after heq
  have hlength := congrArg List.length heq
  simp at hlength
  omega

/-- The laws leave no choice: they say of every text, piece by piece, what it becomes. -/
theorem Expands.unique {f g : String → String} (hf : Expands s e f) (hg : Expands s e g) : f = g := by
  funext text
  suffices hchars : ∀ cs, f (String.ofList cs) = g (String.ofList cs) by
    rw [← String.ofList_toList (s := text)]
    exact hchars _
  intro cs
  fun_induction pieces cs with
  | case1 => rw [hf.plain _ (by simp), hg.plain _ (by simp)]
  | case2 cs name rest hsplit ih =>
    obtain ⟨hname, rfl⟩ := splitAtBrace_eq_some_iff.1 hsplit
    have htext : String.ofList ('$' :: '{' :: (name ++ '}' :: rest)) =
        referenceTo (String.ofList name) ++ String.ofList rest := by
      apply String.toList_inj.1
      rw [String.toList_append, toList_referenceTo]
      simp
    have hname' : '}' ∉ (String.ofList name).toList := by simpa using hname
    rw [htext, hf.append _ _ (closes_referenceTo _) (not_meet_behind _ _),
      hg.append _ _ (closes_referenceTo _) (not_meet_behind _ _), ih,
      hf.reference _ _ hname' (Scope.standsFor_iff.2 rfl), hg.reference _ _ hname' (Scope.standsFor_iff.2 rfl)]
  | case3 cs hsplit =>
    have htext : String.ofList ('$' :: '{' :: cs) = "$\x7b" ++ String.ofList cs := by
      apply String.toList_inj.1
      rw [String.toList_append]
      simp
    have hcs : '}' ∉ (String.ofList cs).toList := by simpa using splitAtBrace_eq_none_iff.1 hsplit
    rw [htext, hf.unclosed _ hcs, hg.unclosed _ hcs]
  | case4 c cs hopens ih =>
    have htext : String.ofList (c :: cs) = String.ofList [c] ++ String.ofList cs := by
      apply String.toList_inj.1
      simp
    have hcloses : ClosesReferences (String.ofList [c]).toList := by simpa using closes_singleton c
    have hmeet : ¬ MeetInReference (String.ofList [c]).toList (String.ofList cs).toList := by
      rw [String.toList_ofList, String.toList_ofList]
      intro h
      obtain ⟨ds, hc, hcs⟩ := meetInReference_singleton.1 h
      exact hopens ds hc hcs
    have hplain : ¬ ['$', '{'] <:+: (String.ofList [c]).toList := by
      intro hwithin
      have hlength := hwithin.length_le
      simp at hlength
    rw [htext, hf.append _ _ hcloses hmeet, hg.append _ _ hcloses hmeet, ih, hf.plain _ hplain, hg.plain _ hplain]

/-- Expansion is the one function with its laws. In particular a value is put in the place of a
    reference as it is, whatever it and the texts around it would make together. -/
theorem expand_piecewise (s : Scope) (e : Escape) :
    (∀ f, Expands s e f ↔ f = expand s e) ∧
    ∀ before name v after : String, ClosesReferences before.toList → '}' ∉ name.toList → s.StandsFor name v →
      expand s e (before ++ referenceTo name ++ after) = expand s e before ++ e.written v ++ expand s e after := by
  refine ⟨fun f => ⟨fun hf => hf.unique (expands_expand s e), fun hf => hf ▸ expands_expand s e⟩, ?_⟩
  intro before name v after hbefore hname hv
  rw [String.append_assoc, expand_append hbefore (not_meet_before _ _ _),
    expand_append (closes_referenceTo name) (not_meet_behind _ _), expand_referenceTo hname hv, String.append_assoc]

namespace Sample

/-- A value with which the text behind its reference would make another reference. -/
def opening : Scope := { session := { grammar := default, vars := [("a", "$"), ("b", "B")] } }

theorem opening_standsFor : opening.StandsFor "a" "$" := Scope.standsFor_iff.2 (by decide)

end Sample

open Sample in
theorem opening_not_joined :
    ClosesReferences "".toList ∧ '}' ∉ "a".toList ∧ opening.StandsFor "a" "$" ∧
      expand opening .raw "$\x7ba\x7d\x7bb\x7d" = "$\x7bb\x7d" := by
  have hempty : ClosesReferences "".toList := fun before after h => by simp at h
  have hlaws := ((expand_piecewise opening .raw).1 _).2 rfl
  refine ⟨hempty, by decide, opening_standsFor, ?_⟩
  have h := (expand_piecewise opening .raw).2 "" "a" "$" "\x7bb\x7d" hempty (by decide) opening_standsFor
  rw [hlaws.plain "" (by decide), hlaws.plain "\x7bb\x7d" (by decide)] at h
  exact h

end LineMatch
