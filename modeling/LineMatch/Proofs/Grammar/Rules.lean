/-
  LineMatch.Proofs.Grammar.Rules — what the check asks, rule by rule.

  A rule is about one place of a grammar: a type, a command or a parameter, with those that
  stand before it in its list. `rules` lists the rules of a grammar in order: the types,
  then the commands, each with its parameters depth first and the one for words left over
  last. The check is judged by that list (`Judges`): it passes when every rule holds, and
  else it reports the first one that does not.

  Proved:
  - `check_of_wellFormed`: a well-formed grammar passes.
  - `judges_check`: the check is judged by the rules in order.
  - `check_exact`: it accepts the well-formed grammars and reports the first rule broken.
-/

import LineMatch.Proofs.Grammar.Checked

namespace LineMatch

/-- The lists of a tree within a tree are lists of the whole. -/
theorem InTree.within {ps qs rs : List Param} (h : InTree qs rs) (hqs : InTree ps qs) : InTree ps rs := by
  induction h with
  | root => exact hqs
  | alternatives _ hp ih => exact ih.alternatives hp
  | nested _ hp ih => exact ih.nested hp

namespace Grammar

/-- What the check asks at one place, after those that stand `before` it in the same list. -/
inductive Rule where
  | newType (before : List ValueType) (t : ValueType)
  | readable (t : ValueType)
  | newCommand (before : List Command) (c : Command)
  | newParam (command : String) (before : List Param) (p : Param)
  | known (command : String) (p : Param)

namespace Rule

def Holds (r : Rule) (g : Grammar) (engine : Pattern.Engine := .standard) : Prop :=
  match r with
  | newType before t => ∀ u ∈ before, u.name ≠ t.name
  | readable t => t.HasPattern engine
  | newCommand before c => ∀ d ∈ before, d.key ≠ c.key
  | newParam _ before p => ∀ q ∈ before, q.name ≠ p.name
  | known _ p => ∃ t ∈ g.types, t.name = p.type

/-- What is reported where the rule is broken. -/
def defect : Rule → Defect
  | newType _ t => .duplicateType t.name
  | readable t => .invalidPattern t.name
  | newCommand _ c => .duplicateCommand c.name
  | newParam command _ p => .duplicateParam command p.name
  | known command p => .unknownType command p.name p.type

end Rule

/-! ## The rules in order -/

/-- The rules of types, of which the first stands after those `before`. -/
def typesRules (before : List ValueType) : List ValueType → List Rule
  | [] => []
  | t :: ts => [.newType before t, .readable t] ++ typesRules (before ++ [t]) ts

/-- Each type has to be readable. -/
theorem readable_mem_typesRules {t : ValueType} (ts before : List ValueType) (h : t ∈ ts) :
    Rule.readable t ∈ typesRules before ts := by
  induction ts generalizing before with
  | nil => cases h
  | cons u ts ih =>
    rw [typesRules, List.mem_append]
    rcases List.mem_cons.1 h with rfl | h
    · exact .inl (List.mem_cons_of_mem _ List.mem_cons_self)
    · exact .inr (ih _ h)

mutual

def paramsRules (command : String) (before : List Param) : List Param → List Rule
  | [] => []
  | p :: ps => .newParam command before p :: .known command p :: nestedRules command p ++
      paramsRules command (before ++ [p]) ps

/-- The rules of the lists nested in a parameter: its alternatives, then what follows it. -/
def nestedRules (command : String) : Param → List Rule
  | ⟨_, _, _, mode, _, _, _, params⟩ =>
    (match mode with
    | .switch alternatives => paramsRules command [] alternatives
    | .ordinary | .subcommand _ => []) ++ paramsRules command [] params

end

def commandsRules (before : List Command) : List Command → List Rule
  | [] => []
  | c :: cs => .newCommand before c :: paramsRules c.name [] c.params ++
      paramsRules c.name [] c.args.toList ++ commandsRules (before ++ [c]) cs

/-- The rules of a grammar, in the order of the check. -/
def rules (g : Grammar) : List Rule := typesRules [] g.types ++ commandsRules [] g.commands

/-- Of the rules `rs` the first that is broken is one for which `d` is reported. -/
def FirstBroken (g : Grammar) (rs : List Rule) (d : Defect) (engine : Pattern.Engine := .standard) : Prop :=
  ∃ before r after, rs = before ++ r :: after ∧ (∀ q ∈ before, q.Holds g engine) ∧ ¬r.Holds g engine ∧ r.defect = d

/-- Going through the rules in order comes to this outcome. -/
def Judges (g : Grammar) (engine : Pattern.Engine) (rs : List Rule) : Except Defect Unit → Prop
  | .ok () => ∀ r ∈ rs, r.Holds g engine
  | .error d => g.FirstBroken rs d engine

section

variable {g : Grammar} {engine : Pattern.Engine} {rs ss : List Rule} {r : Rule} {d e : Defect} {x y : Except Defect Unit}
  {command : String} {seen : List String} {t : ValueType} {p : Param} {ps qs : List Param} {c : Command}

/-! ## Going through rules -/

theorem FirstBroken.unique (hd : g.FirstBroken rs d engine) (he : g.FirstBroken rs e engine) : d = e := by
  obtain ⟨before, r, after, rfl, hbefore, hr, rfl⟩ := hd
  obtain ⟨before', r', after', heq, hbefore', hr', rfl⟩ := he
  rcases List.append_eq_append_iff.1 heq with ⟨more, rfl, hmore⟩ | ⟨more, rfl, hmore⟩
  · rcases more with _ | ⟨q, more⟩
    · cases hmore
      rfl
    · cases hmore
      exact absurd (hbefore' r (by simp)) hr
  · rcases more with _ | ⟨q, more⟩
    · cases hmore
      rfl
    · cases hmore
      exact absurd (hbefore r' (by simp)) hr'

theorem Judges.nil : g.Judges engine [] (.ok ()) := nofun

theorem Judges.append (hx : g.Judges engine rs x) (hy : g.Judges engine ss y) : g.Judges engine (rs ++ ss) (x >>= fun _ => y) := by
  rcases x with d | ⟨⟩
  · obtain ⟨before, r, after, rfl, h⟩ := hx
    exact ⟨before, r, after ++ ss, by simp, h⟩
  · change g.Judges engine (rs ++ ss) y
    rcases y with d | ⟨⟩
    · obtain ⟨before, r, after, rfl, hbefore, h⟩ := hy
      refine ⟨rs ++ before, r, after, by simp, fun q hq => ?_, h⟩
      rcases List.mem_append.1 hq with hq | hq
      · exact hx q hq
      · exact hbefore q hq
    · intro r hr
      rcases List.mem_append.1 hr with hr | hr
      · exact hx r hr
      · exact hy r hr

/-- A rule that is looked at before others. -/
theorem Judges.guard {b : Prop} [Decidable b] (h : r.Holds g engine ↔ ¬b) (hx : g.Judges engine rs x) :
    g.Judges engine (r :: rs) (if b then .error r.defect else x) := by
  by_cases hb : b
  · rw [if_pos hb]
    exact ⟨[], r, rs, rfl, nofun, fun hr => h.1 hr hb, rfl⟩
  · rw [if_neg hb]
    have hone : g.Judges engine [r] (.ok ()) := by
      intro q hq
      rw [List.mem_singleton.1 hq]
      exact h.2 hb
    exact hone.append hx

/-- The keys `seen` are those of the ones before. -/
def Agree {α : Type} (key : α → String) (seen : List String) (before : List α) : Prop :=
  ∀ name, name ∈ seen ↔ ∃ a ∈ before, key a = name

section

variable {α : Type} {key : α → String} {before : List α} {a : α}

theorem Agree.nil : Agree key [] [] := by simp [Agree]

theorem Agree.cons (h : Agree key seen before) : Agree key (key a :: seen) (before ++ [a]) := by
  intro name
  rw [List.mem_cons, h name]
  constructor
  · rintro (rfl | ⟨b, hb, hkey⟩)
    · exact ⟨a, by simp, rfl⟩
    · exact ⟨b, by simp [hb], hkey⟩
  · rintro ⟨b, hb, hkey⟩
    rcases List.mem_append.1 hb with hb | hb
    · exact .inr ⟨b, hb, hkey⟩
    · rw [List.mem_singleton.1 hb] at hkey
      exact .inl hkey.symm

theorem Agree.new_iff (h : Agree key seen before) :
    (∀ b ∈ before, key b ≠ key a) ↔ ¬seen.contains (key a) = true := by
  rw [List.contains_iff_mem, h (key a)]
  simp

end

/-! ## Types -/

theorem judges_pattern : g.Judges engine [.readable t] (match t.method with
    | .regexp pattern => if (Pattern.compile? engine pattern).isSome then .ok () else .error (.invalidPattern t.name)
    | _ => .ok ()) := by
  cases hm : t.method with
  | regexp pattern =>
    have hread : (Rule.readable t).Holds g engine ↔ ¬¬(Pattern.compile? engine pattern).isSome = true := by
      simp only [Rule.Holds, ValueType.HasPattern, hm, Method.regexp.injEq, forall_eq', not_not]
    have hguard := Judges.guard hread .nil
    rw [ite_not] at hguard
    exact hguard
  | _ => simp [Judges, Rule.Holds, ValueType.HasPattern, hm]

theorem judges_type {before : List ValueType} (h : Agree ValueType.name seen before) :
    g.Judges engine [.newType before t, .readable t] (checkType seen t engine) :=
  judges_pattern.guard h.new_iff

theorem judges_types {before : List ValueType} (ts : List ValueType) (h : Agree ValueType.name seen before) :
    g.Judges engine (typesRules before ts) (checkTypes seen ts engine) := by
  induction ts generalizing seen before with
  | nil => exact .nil
  | cons t ts ih => exact (judges_type h).append (ih h.cons)

/-! ## Parameters -/

theorem type?_isNone_iff {name : String} : ¬(g.type? name).isNone = true ↔ ∃ t ∈ g.types, t.name = name := by
  simp [type?]

mutual

theorem judges_params (command : String) (before : List Param) (seen : List String)
    (h : Agree Param.name seen before) : ∀ ps : List Param,
      g.Judges engine (paramsRules command before ps) (checkParams g command seen ps)
  | [] => .nil
  | p :: ps => (judges_param command before seen h p).append
      (judges_params command (before ++ [p]) (p.name :: seen) h.cons ps)

theorem judges_param (command : String) (before : List Param) (seen : List String)
    (h : Agree Param.name seen before) : ∀ p : Param,
      g.Judges engine (.newParam command before p :: .known command p :: nestedRules command p)
        (checkParam g command seen p)
  | ⟨name, help, type, mode, isOptional, isOrdered, test, params⟩ => by
    have hparams := judges_params command [] [] .nil params
    rw [checkParam]
    refine Judges.guard h.new_iff (Judges.guard type?_isNone_iff.symm ?_)
    cases mode with
    | switch alternatives => exact (judges_params command [] [] .nil alternatives).append hparams
    | ordinary => exact hparams
    | subcommand keyword => exact hparams

end

/-! ## Commands -/

theorem judges_args : g.Judges engine (paramsRules c.name [] c.args.toList) (match c.args with
    | some p => checkParams g c.name [] [p]
    | none => .ok ()) := by
  cases c.args with
  | none => exact .nil
  | some p => exact judges_params c.name [] [] .nil [p]

theorem judges_command {before : List Command} (h : Agree Command.key seen before) :
    g.Judges engine (.newCommand before c :: paramsRules c.name [] c.params ++ paramsRules c.name [] c.args.toList)
      (checkCommand g seen c) :=
  ((judges_params c.name [] [] .nil c.params).append judges_args).guard h.new_iff

theorem judges_commands {before : List Command} (cs : List Command) (h : Agree Command.key seen before) :
    g.Judges engine (commandsRules before cs) (checkCommands g seen cs) := by
  induction cs generalizing seen before with
  | nil => exact .nil
  | cons c cs ih => exact (judges_command h).append (ih h.cons)

/-- What the check comes to is what going through the rules in order comes to. -/
theorem judges_check (g : Grammar) (engine : Pattern.Engine) : g.Judges engine g.rules (g.check engine) :=
  (judges_types g.types .nil).append (judges_commands g.commands .nil)

/-! ## Well-formed grammars pass -/

theorem sizeOf_nested_lt (hp : p ∈ ps) : sizeOf p.alternatives < sizeOf ps ∧ sizeOf p.params < sizeOf ps := by
  have hlist := List.sizeOf_lt_of_mem hp
  obtain ⟨name, help, type, mode, isOptional, isOrdered, test, params⟩ := p
  cases mode <;> simp only [Param.alternatives, Param.mk.sizeOf_spec, Mode.switch.sizeOf_spec,
    List.nil.sizeOf_spec] at hlist ⊢ <;> omega

/-- Where all lists of a tree keep to the rules, the tree passes. -/
theorem checkParams_of_keeps (command : String) (ps : List Param) (h : ∀ qs, InTree ps qs → g.Keeps qs) :
    checkParams g command [] ps = .ok () := by
  refine checkParams_ok.2 ⟨fun p hp => ⟨List.not_mem_nil, (h ps .root).known p hp, ?_, ?_⟩, (h ps .root).distinct⟩
  · exact checkParams_of_keeps command p.alternatives fun qs hqs => h qs (hqs.within (.alternatives .root hp))
  · exact checkParams_of_keeps command p.params fun qs hqs => h qs (hqs.within (.nested .root hp))
termination_by sizeOf ps
decreasing_by
  · exact (sizeOf_nested_lt hp).1
  · exact (sizeOf_nested_lt hp).2

theorem check_of_wellFormed (h : g.WellFormed) : g.check = .ok () := by
  refine then_ok.2 ⟨checkTypes_ok.2 ⟨fun t ht => ⟨List.not_mem_nil, h.patterns t ht⟩, h.types⟩, ?_⟩
  refine checkCommands_ok.2 ⟨fun c hc => ⟨List.not_mem_nil, ?_, fun args hargs => ?_⟩, h.commands⟩
  · exact checkParams_of_keeps c.name c.params fun qs hqs => h.lists c hc qs (.inl hqs)
  · exact checkParams_of_keeps c.name [args] fun qs hqs => h.lists c hc qs (.inr ⟨args, hargs, hqs⟩)

end

/-- The check accepts the well-formed grammars, and reports of the others the first rule
    that is broken. -/
theorem check_exact (g : Grammar) :
    (g.check = .ok () ↔ g.WellFormed) ∧ ∀ d, g.check = .error d ↔ g.FirstBroken g.rules d := by
  refine ⟨⟨wellFormed_of_check, check_of_wellFormed⟩, fun d => ⟨fun hd => ?_, fun hd => ?_⟩⟩
  · have hjudges := judges_check g .standard
    rwa [hd] at hjudges
  · have hjudges := judges_check g .standard
    rcases hcheck : g.check with e | ⟨⟩
    · rw [hcheck] at hjudges
      rw [hjudges.unique hd]
    · rw [hcheck] at hjudges
      obtain ⟨before, r, after, hrules, -, hr, -⟩ := hd
      exact absurd (hjudges r (by simp [hrules])) hr

end Grammar

end LineMatch
