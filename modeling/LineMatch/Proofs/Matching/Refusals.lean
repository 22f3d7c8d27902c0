/-
  LineMatch.Proofs.Matching.Refusals — why a word is refused.

  A parameter refuses a word that does not begin its keyword, that its type does not
  accept, or for which the action of the type fails. Two other reasons lie in the grammar
  and not in the word: a type that is not there, and a pattern that cannot be read. The
  check keeps them away from every list that a match can come to.

  Proved:
  - `accept?_eq_none_iff`: a parameter refuses a word just where there is a reason.
  - `Listed.inTree`: the lists that a match comes to are among those that are checked.
  - `refuses_for_the_word`: with a checked grammar the match of a line refuses no word for
    one of the other two reasons.
-/

import LineMatch.Proofs.Line.Resolving
import LineMatch.Proofs.Matching.Appending

namespace LineMatch

/-- Why a parameter refuses a word. -/
inductive Refusal where
  | keyword
  | unknownType
  | brokenPattern
  /-- By the rule of the type. -/
  | rule
  | action
  deriving DecidableEq, Repr

def Method.refusal? (method : Method) (value : String) : Option Refusal :=
  match method with
  | .regexp pattern =>
    match Pattern.compile? .standard pattern with
    | some e => if e.isMatch value.toList then none else some .rule
    | none => some .brokenPattern
  | _ => if method.admits value then none else some .rule

def ValueType.refusal? (t : ValueType) (run : Executor) (s : Scope) (text : String) (calls : List Scope) :
    Option Refusal :=
  match t.action? with
  | none => t.method.refusal? (t.preprocess.apply text)
  | some a => if (verdict text (run calls (s.checking t a text))).isSome then none else some .action

def Param.refusal? (p : Param) (run : Executor) (s : Scope) (text : String) (calls : List Scope) : Option Refusal :=
  if p.admits text then
    match s.session.grammar.type? p.type with
    | some t => t.refusal? run s text calls
    | none => some .unknownType
  else some .keyword

/-- The reason is one that lies in the word. -/
def Refusal.OfWord (r : Refusal) : Prop := r = .keyword ∨ r = .rule ∨ r = .action

section

variable {method : Method} {t : ValueType} {p q node : Param} {ps qs : List Param} {run : Executor} {s : Scope}
  {text : String} {calls : List Scope} {r : Refusal}

/-! ## Where there is a reason -/

theorem admits_eq_false_iff : method.admits text = false ↔ ∃ r, method.refusal? text = some r := by
  cases method with
  | regexp pattern =>
    rw [Method.admits, Method.refusal?]
    rcases hp : Pattern.compile? .standard pattern with _ | e
    · simp
    · cases hm : e.isMatch text.toList <;> simp [hm]
  | _ => simp [Method.refusal?]

theorem judge_eq_none_iff : (t.judge run s text calls).1 = none ↔ ∃ r, t.refusal? run s text calls = some r := by
  rw [ValueType.judge, ValueType.refusal?]
  rcases t.action? with _ | a
  · rw [← admits_eq_false_iff]
    simp [ValueType.accept?]
  · rcases hv : verdict text (run calls (s.checking t a text)) with _ | value <;> simp

/-- A parameter refuses a word just where there is a reason. -/
theorem accept?_eq_none_iff : (p.accept? run s text calls).1 = none ↔ ∃ r, p.refusal? run s text calls = some r := by
  rw [Param.accept?, Param.refusal?]
  split
  · rcases s.session.grammar.type? p.type with _ | t
    · simp
    · exact judge_eq_none_iff
  · simp

theorem ValueType.ofWord_of_refusal? (ht : t.HasPattern) (h : t.refusal? run s text calls = some r) : r.OfWord := by
  unfold ValueType.refusal? at h
  split at h
  · cases hm : t.method with
    | regexp pattern =>
      obtain ⟨e, he⟩ := Option.isSome_iff_exists.1 (ht pattern hm)
      rw [hm, Method.refusal?, he] at h
      simp only at h
      split at h
      · cases h
      · cases h
        exact .inr (.inl rfl)
    | _ =>
      simp only [hm, Method.refusal?] at h
      split at h
      · cases h
      · cases h
        exact .inr (.inl rfl)
  · split at h
    · cases h
    · cases h
      exact .inr (.inr rfl)

/-- Where the type of a parameter is known, and its pattern can be read, the reason lies
    in the word. -/
theorem Param.ofWord_of_refusal? (ht : s.session.grammar.type? p.type = some t) (hp : t.HasPattern)
    (h : p.refusal? run s text calls = some r) : r.OfWord := by
  unfold Param.refusal? at h
  rw [ht] at h
  split at h
  · exact ValueType.ofWord_of_refusal? hp h
  · cases h
    exact .inl rfl

/-! ## Lists that are checked -/

theorem InTree.of_choice (h : InTree ps qs) (hp : p ∈ qs) (hnode : node ∈ p.choices) :
    ∃ rs, InTree ps rs ∧ node ∈ rs := by
  rcases List.mem_cons.1 (p.choices_subset node hnode) with rfl | ha
  · exact ⟨qs, h, hp⟩
  · exact ⟨p.alternatives, .alternatives h hp, ha⟩

/-- The lists that a match can come to are in the tree. -/
theorem Listed.inTree (h : Listed ps p) : ∃ qs, InTree ps qs ∧ p ∈ qs := by
  induction h with
  | here hp => exact ⟨ps, .root, hp⟩
  | nested _ hnode hq ih =>
    obtain ⟨qs, hqs, hp⟩ := ih
    obtain ⟨rs, hrs, hmem⟩ := hqs.of_choice hp hnode
    exact ⟨_, .nested hrs hmem, hq⟩

end

/-! ## The match of a line -/

open LineMatch.Matching
open LineMatch.Matching.Setting (start scansListed_start)

/-- A match tries words on the choices of the parameters it visits. With a checked grammar
    each of these has a type that is found, the one of that name, and the pattern of the
    type, if it has one, can be read; and it refuses a word just where the keyword, the
    rule of the type or the action gives a reason. The command that a line names is one of
    the grammar. -/
theorem refuses_for_the_word (s : Session) (run : Executor) (line : String) (hcheck : s.grammar.check = .ok ()) :
    (∀ c, s.grammar.resolve? (tokens line) = some c → c ∈ s.grammar.commands) ∧
      ∀ c ∈ s.grammar.commands, ∀ target,
        let m := s.setting run c (tokens line) target
        ∀ t f fs p, m.Reach (start c.params c.wordCount .empty) t → m.Visits t f fs p → ∀ node ∈ p.choices,
          (∃ type, s.grammar.type? node.type = some type ∧ type.HasPattern ∧
            ∀ u ∈ s.grammar.types, u.name = node.type → u = type) ∧
          ∀ word calls, (node.accept? run m.scope word calls).1 = none ↔
            ∃ r, node.refusal? run m.scope word calls = some r ∧ r.OfWord := by
  have hg := Grammar.wellFormed_of_check hcheck
  refine ⟨fun c hc => Grammar.resolve?_mem hc, ?_⟩
  intro c hc target m t f fs p hr hv node hchoice
  have hlisted : Listed c.params p := hv.listed (hr.scansListed (scansListed_start _ _ _))
  obtain ⟨qs, hqs, hp⟩ := hlisted.inTree
  obtain ⟨rs, hrs, hnode⟩ := hqs.of_choice hp hchoice
  obtain ⟨type, htype⟩ := (hg.lists c hc rs (.inl hrs)).known node hnode
  have hpattern : type.HasPattern := hg.patterns type (Grammar.mem_of_type? htype).1
  refine ⟨⟨type, htype, hpattern, ?_⟩, ?_⟩
  · intro u hu hname
    have hfound := hg.type?_iff.2 ⟨hu, hname⟩
    rw [htype] at hfound
    exact (Option.some.inj hfound).symm
  · intro word calls
    rw [accept?_eq_none_iff]
    constructor
    · rintro ⟨r, hreason⟩
      exact ⟨r, hreason, node.ofWord_of_refusal? htype hpattern hreason⟩
    · rintro ⟨r, hreason, -⟩
      exact ⟨r, hreason⟩

/-! ## A command with a pattern and an action -/

namespace Matching.Sample

/-- Takes a number, then `direct` or a line that is free. -/
def dial : Command where
  name := "dial"
  params := [
    { name := "number", type := "DIGITS" },
    { name := "by", type := "LINE", mode := .switch [
      { name := "direct", type := "DIGITS", mode := .subcommand "direct" }, { name := "line", type := "LINE" }] }]

def dialling : Session where
  grammar := {
    types := [{ name := "DIGITS", method := .regexp "[0-9]+" },
      { name := "LINE", method := .code { script := "is-free ${value}" } }]
    commands := [dial] }

end Matching.Sample

open Matching.Sample in
/-- In `dial x` the first word is no number, and it is refused for that. -/
theorem dial_refuses : dialling.grammar.check = .ok () ∧
    let m := dialling.setting never dial (tokens "dial x") none
    let number : Param := { name := "number", type := "DIGITS" }
    m.Visits (start dial.params dial.wordCount .empty) ⟨dial.params, 0, 0⟩ [] number ∧
      ∃ r, number.refusal? never m.scope "x" [] = some r ∧ r.OfWord := by
  have hcheck : dialling.grammar.check = .ok () := by
    rfl
  refine ⟨hcheck, ?_⟩
  intro m number
  have hv : m.Visits (start dial.params dial.wordCount .empty) ⟨dial.params, 0, 0⟩ [] number := ⟨rfl, rfl, rfl⟩
  obtain ⟨-, hreason⟩ := (refuses_for_the_word dialling never "dial x" hcheck).2 dial List.mem_cons_self none
    _ _ _ number (.refl _) hv number List.mem_cons_self
  have hrefused : (number.accept? never m.scope "x" []).1 = none := by
    decide +kernel
  exact ⟨hv, (hreason "x" []).1 hrefused⟩

end LineMatch
