/-
  LineMatch.Proofs.Grammar.Checked — what a grammar that passes the check keeps to.

  Types, commands and the parameters of a list are checked in the same way: one after the
  other, each against the keys of those before it (`passes_iff`). The lists of parameters
  that are checked are those of a command's tree (`InTree`), whether a match can come to
  them or not.

  Proved:
  - `checkTypes_ok`, `checkParams_ok`, `checkCommands_ok`: when a list of them passes.
  - `InTree.keeps`: where a list of parameters passes, so does every list in its tree.
  - `wellFormed_of_check`: what a grammar that passes keeps to.
  - `WellFormed.type?_iff`, `WellFormed.command?_iff`: in such a grammar a look-up finds the
    one type of the name, or the one command.
-/

import Mathlib.Data.List.Nodup
import LineMatch.Grammar.Check

namespace LineMatch

/-- `qs` is a list in the tree of `ps`: `ps` itself, the alternatives of a parameter in
    such a list, or the parameters nested in it. -/
inductive InTree (ps : List Param) : List Param → Prop
  | root : InTree ps ps
  | alternatives {qs : List Param} {p : Param} : InTree ps qs → p ∈ qs → InTree ps p.alternatives
  | nested {qs : List Param} {p : Param} : InTree ps qs → p ∈ qs → InTree ps p.params

/-- `qs` is a list in a tree of the command: that of its parameters, or that of the one for
    words left over. -/
def Command.HasList (c : Command) (qs : List Param) : Prop :=
  InTree c.params qs ∨ ∃ args, c.args = some args ∧ InTree [args] qs

/-- The pattern of a type, if it has one, can be read. -/
def ValueType.HasPattern (t : ValueType) (engine : Pattern.Engine := .standard) : Prop :=
  ∀ pattern, t.method = .regexp pattern → (Pattern.compile? engine pattern).isSome = true

namespace Grammar

variable {g : Grammar} {command name : String} {seen : List String} {t : ValueType} {p : Param}
  {ps qs : List Param} {c : Command}

/-! ## One after the other -/

section

variable {ε α : Type} {x y : Except ε Unit}

theorem then_ok : (x >>= fun _ => y) = .ok () ↔ x = .ok () ∧ y = .ok () := by
  cases x with
  | error => exact ⟨nofun, nofun⟩
  | ok => exact ⟨fun h => ⟨rfl, h⟩, fun h => h.2⟩

/-- Where one passes that has a new key and `P`, a list passes of those that have `P` and
    keys that are new and distinct. -/
theorem passes_iff (all : List String → List α → Except ε Unit) (one : List String → α → Except ε Unit)
    (key : α → String) {P : α → Prop} (hnil : ∀ seen, all seen [] = .ok ())
    (hcons : ∀ seen a as, all seen (a :: as) = (one seen a >>= fun _ => all (key a :: seen) as))
    (hone : ∀ seen a, one seen a = .ok () ↔ key a ∉ seen ∧ P a) (seen : List String) (as : List α) :
    all seen as = .ok () ↔ (∀ a ∈ as, key a ∉ seen ∧ P a) ∧ (as.map key).Nodup := by
  induction as generalizing seen with
  | nil => simp [hnil]
  | cons a as ih =>
    rw [hcons, then_ok, hone, ih]
    simp only [List.forall_mem_cons, List.map_cons, List.nodup_cons, List.mem_map, not_exists, not_and]
    constructor
    · rintro ⟨ha, has, hnodup⟩
      refine ⟨⟨ha, fun b hb => ⟨fun hold => ?_, (has b hb).2⟩⟩, fun b hb heq => ?_, hnodup⟩
      · exact (has b hb).1 (List.mem_cons_of_mem _ hold)
      · exact (has b hb).1 (heq ▸ List.mem_cons_self)
    · rintro ⟨⟨ha, has⟩, hnew, hnodup⟩
      refine ⟨ha, fun b hb => ⟨fun hold => ?_, (has b hb).2⟩, hnodup⟩
      rcases List.mem_cons.1 hold with heq | hold
      · exact hnew b hb heq
      · exact (has b hb).1 hold

end

/-! ## Types -/

theorem checkType_ok : checkType seen t = .ok () ↔ t.name ∉ seen ∧ t.HasPattern := by
  rw [checkType]
  by_cases hseen : t.name ∈ seen
  · simp [hseen]
  · rw [if_neg (by simpa using hseen)]
    cases hm : t.method with
    | regexp pattern => cases hp : Pattern.compile? .standard pattern <;> simp [ValueType.HasPattern, hm, hp, hseen]
    | _ => simp [ValueType.HasPattern, hm, hseen]

theorem checkTypes_ok {ts : List ValueType} :
    checkTypes seen ts = .ok () ↔ (∀ t ∈ ts, t.name ∉ seen ∧ t.HasPattern) ∧ (ts.map ValueType.name).Nodup :=
  passes_iff checkTypes checkType ValueType.name (fun _ => rfl) (fun _ _ _ => rfl) (fun _ _ => checkType_ok) seen ts

/-! ## Parameters -/

/-- The parameters of a list have distinct names and types that the grammar has. -/
structure Keeps (g : Grammar) (ps : List Param) : Prop where
  distinct : (ps.map Param.name).Nodup
  known : ∀ p ∈ ps, ∃ t, g.type? p.type = some t

/-- The type is known, and the lists nested in the parameter pass. -/
def Passes (g : Grammar) (command : String) (p : Param) : Prop :=
  (∃ t, g.type? p.type = some t) ∧ checkParams g command [] p.alternatives = .ok () ∧
    checkParams g command [] p.params = .ok ()

theorem checkParam_ok : checkParam g command seen p = .ok () ↔ p.name ∉ seen ∧ g.Passes command p := by
  obtain ⟨name, help, type, mode, a, b, c, params⟩ := p
  rw [checkParam, Passes]
  by_cases hseen : name ∈ seen
  · simp [hseen, bind, Except.bind]
  rcases ht : g.type? type with _ | t
  · simp [hseen, bind, Except.bind]
  · have hnil : checkParams g command [] [] = .ok () := rfl
    cases mode <;> simp [hseen, hnil, then_ok, Param.alternatives]

theorem checkParams_ok : checkParams g command seen ps = .ok () ↔
    (∀ p ∈ ps, p.name ∉ seen ∧ g.Passes command p) ∧ (ps.map Param.name).Nodup :=
  passes_iff (checkParams g command) (checkParam g command) Param.name (fun _ => rfl) (fun _ _ _ => rfl)
    (fun _ _ => checkParam_ok) seen ps

/-! ## Commands -/

/-- The trees of the command pass. -/
def CommandPasses (g : Grammar) (c : Command) : Prop :=
  checkParams g c.name [] c.params = .ok () ∧ ∀ args, c.args = some args → checkParams g c.name [] [args] = .ok ()

theorem checkCommand_ok : checkCommand g seen c = .ok () ↔ c.key ∉ seen ∧ g.CommandPasses c := by
  rw [checkCommand, CommandPasses]
  by_cases hseen : c.key ∈ seen
  · simp [hseen, bind, Except.bind]
  · cases ha : c.args <;> simp [hseen, then_ok]

theorem checkCommands_ok {cs : List Command} : checkCommands g seen cs = .ok () ↔
    (∀ c ∈ cs, c.key ∉ seen ∧ g.CommandPasses c) ∧ (cs.map Command.key).Nodup :=
  passes_iff (checkCommands g) (checkCommand g) Command.key (fun _ => rfl) (fun _ _ _ => rfl)
    (fun _ _ => checkCommand_ok) seen cs

end Grammar

namespace InTree

variable {g : Grammar} {command : String} {ps qs : List Param}

theorem passes (h : InTree ps qs) (hps : g.checkParams command [] ps = .ok ()) :
    g.checkParams command [] qs = .ok () := by
  induction h with
  | root => exact hps
  | alternatives _ hp ih => exact ((Grammar.checkParams_ok.1 ih).1 _ hp).2.2.1
  | nested _ hp ih => exact ((Grammar.checkParams_ok.1 ih).1 _ hp).2.2.2

/-- Where a list of parameters passes, so does every list in its tree. -/
theorem keeps (h : InTree ps qs) (hps : g.checkParams command [] ps = .ok ()) : g.Keeps qs := by
  obtain ⟨hall, hdistinct⟩ := Grammar.checkParams_ok.1 (h.passes hps)
  exact ⟨hdistinct, fun p hp => (hall p hp).2.1⟩

end InTree

/-! ## Grammars -/

namespace Grammar

/-- What the check asks of a grammar. -/
structure WellFormed (g : Grammar) : Prop where
  types : (g.types.map ValueType.name).Nodup
  patterns : ∀ t ∈ g.types, t.HasPattern
  commands : (g.commands.map Command.key).Nodup
  lists : ∀ c ∈ g.commands, ∀ qs, c.HasList qs → g.Keeps qs

theorem wellFormed_of_check {g : Grammar} (h : g.check = .ok ()) : g.WellFormed := by
  obtain ⟨htypes, hcommands⟩ := then_ok.1 h
  obtain ⟨hpatterns, htypes⟩ := checkTypes_ok.1 htypes
  obtain ⟨hpasses, hcommands⟩ := checkCommands_ok.1 hcommands
  refine ⟨htypes, fun t ht => (hpatterns t ht).2, hcommands, fun c hc qs hqs => ?_⟩
  obtain ⟨hparams, hargs⟩ := (hpasses c hc).2
  rcases hqs with hqs | ⟨args, ha, hqs⟩
  · exact hqs.keeps hparams
  · exact hqs.keeps (hargs args ha)

/-! ## Looking up -/

section

variable {α : Type} {key : α → String} {as : List α} {a : α} {name : String}

theorem mem_of_last? (h : as.reverse.find? (key · == name) = some a) : a ∈ as ∧ key a = name := by
  refine ⟨List.mem_reverse.1 (List.mem_of_find?_eq_some h), ?_⟩
  have hkey : (key a == name) = true := List.find?_some (p := fun a => key a == name) h
  exact beq_iff_eq.1 hkey

/-- Where keys are distinct, the last one with a key is the only one. -/
theorem last?_iff (h : (as.map key).Nodup) : as.reverse.find? (key · == name) = some a ↔ a ∈ as ∧ key a = name := by
  refine ⟨mem_of_last?, fun ⟨ha, hkey⟩ => ?_⟩
  have hsome : (as.reverse.find? (key · == name)).isSome = true :=
    List.find?_isSome.2 ⟨a, List.mem_reverse.2 ha, by simp [hkey]⟩
  obtain ⟨b, hb⟩ := Option.isSome_iff_exists.1 hsome
  obtain ⟨hmem, hbkey⟩ := mem_of_last? hb
  rw [hb, List.inj_on_of_nodup_map h hmem ha (hbkey.trans hkey.symm)]

end

variable {g : Grammar} {name : String} {t : ValueType} {c : Command}

theorem mem_of_type? (h : g.type? name = some t) : t ∈ g.types ∧ t.name = name := mem_of_last? h

/-- A look-up finds the one type of the name. -/
theorem WellFormed.type?_iff (h : g.WellFormed) : g.type? name = some t ↔ t ∈ g.types ∧ t.name = name :=
  last?_iff h.types

/-- A look-up finds the one command whose name has the same key. -/
theorem WellFormed.command?_iff (h : g.WellFormed) :
    g.command? name = some c ↔ c ∈ g.commands ∧ c.key = nameKey name :=
  last?_iff h.commands

end Grammar

end LineMatch
