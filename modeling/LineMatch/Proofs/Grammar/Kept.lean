/-
  LineMatch.Proofs.Grammar.Kept — parameters as they are written, and as they are read.

  A parameter is written as an object or an array, which lists parameters as alternatives
  and as parameters that follow. What is read is compared with the outline of its text, node
  by node: a path leads to the same place in both. A switch keeps its alternatives, and an
  ordinary parameter that lists any is refused. A subcommand is read whatever it lists as
  alternatives, and has none of them.

  Proved:
  - `nested_kept`: what a path leads to in the parameter stands at this path in the text; and
    the parameter has all that the text lists if and only if no subcommand lists alternatives.
  - `alternative_lost`: one that does is read, and what it lists is lost.
-/

import Mathlib.Data.List.Induction
import LineMatch.Proofs.Grammar.Readable
import LineMatch.Proofs.Json.Outline

namespace LineMatch

open LineMatch.Json
open LineMatch.Json.Read

/-! ## Paths -/

/-- From a parameter to one that it has. -/
inductive Down where
  | alternative (i : Nat)
  | param (i : Nat)
  deriving DecidableEq, Repr

def Down.pick {α : Type} (down : Down) (alternatives params : List α) : Option α :=
  match down with
  | alternative i => alternatives[i]?
  | param i => params[i]?

/-- The parameter that a path leads to. -/
def Param.at? (p : Param) (path : List Down) : Option Param :=
  path.foldlM (fun q down => down.pick q.alternatives q.params) p

namespace Written

/-- A member of an object, or the element at its place in an array. -/
def field? (v : Value) (name : String) (place : Nat) : Option Value :=
  match v with
  | .object ms => ms.lookup name
  | .array vs => vs[place]?
  | _ => none

def listed (o : Option Value) : List Value := (o.bind Value.array?).getD []

/-- What is listed as alternatives. -/
def alternatives (v : Value) : List Value := listed (field? v "alternatives" 8)

/-- What is listed as parameters that follow. -/
def params (v : Value) : List Value := listed (field? v "params" 9)

/-- What stands where a path leads. -/
def at? (v : Value) (path : List Down) : Option Value :=
  path.foldlM (fun w down => down.pick (alternatives w) (params w)) v

end Written

/-- A parameter has the name and the type that are written, and as many parameters follow as
    are listed. If it is no subcommand, it has as many alternatives as are listed; only a switch
    has any, and always some, and nothing follows it. -/
structure Param.IsWritten (p : Param) (v : Value) : Prop where
  name : Written.field? v "name" 0 = some (.string p.name)
  type : Written.field? v "ptype" 2 = some (.string p.type)
  params : p.params.length = (Written.params v).length
  alternatives : p.keyword? = none → p.alternatives.length = (Written.alternatives v).length
  listed : Written.alternatives v ≠ [] → p.isSwitch = true ∨ p.keyword? ≠ none
  switch : p.isSwitch = true → Written.alternatives v ≠ [] ∧ Written.params v = []

/-- What a path leads to stands there in the text. -/
def Param.Keeps (p : Param) (v : Value) : Prop :=
  ∀ path q, p.at? path = some q → ∃ w, Written.at? v path = some w ∧ q.IsWritten w

section

variable {α : Type} {p q : Param} {v w : Value} {path : List Down} {down : Down} {as ps : List Param} {vs ws : List Value}

theorem Param.at?_cons : p.at? (down :: path) = (down.pick p.alternatives p.params).bind (·.at? path) := by
  rw [Param.at?, List.foldlM_cons]
  rfl

theorem Written.at?_cons : at? v (down :: path) = (down.pick (alternatives v) (params v)).bind (at? · path) := by
  rw [at?, List.foldlM_cons]
  rfl

theorem Param.at?_snoc : p.at? (path ++ [down]) = (p.at? path).bind fun q => down.pick q.alternatives q.params := by
  rw [Param.at?, List.foldlM_append]
  simp [Param.at?]

theorem Written.at?_snoc :
    at? v (path ++ [down]) = (at? v path).bind fun w => down.pick (alternatives w) (params w) := by
  rw [at?, List.foldlM_append]
  simp [at?]

theorem Param.alternatives_of_keyword (h : p.keyword? ≠ none) : p.alternatives = [] := by
  unfold keyword? at h
  unfold alternatives
  cases hmode : p.mode with
  | ordinary => rfl
  | switch as =>
    rw [hmode] at h
    exact absurd rfl h
  | subcommand => rfl

theorem Param.isSwitch_of_alternatives (h : p.alternatives ≠ []) : p.isSwitch = true := by
  unfold alternatives at h
  unfold isSwitch
  cases hmode : p.mode with
  | switch as => rfl
  | ordinary | subcommand =>
    rw [hmode] at h
    exact absurd rfl h

/-- Of two lists that are related element by element, the elements at a place are. -/
theorem forall₂_getElem? {K : Param → Value → Prop} (h : List.Forall₂ K ps ws) {i : Nat} (hq : ps[i]? = some q) :
    ∃ w, ws[i]? = some w ∧ K q w := by
  obtain ⟨hlt, rfl⟩ := List.getElem?_eq_some_iff.1 hq
  have hlt' : i < ws.length := h.length_eq ▸ hlt
  exact ⟨ws[i], List.getElem?_eq_getElem hlt', h.get hlt hlt'⟩

/-- A parameter keeps to the text if all that it has does. -/
theorem Param.keeps_of_nested (h : p.IsWritten v)
    (has : p.keyword? = none → List.Forall₂ Param.Keeps p.alternatives (Written.alternatives v))
    (hps : List.Forall₂ Param.Keeps p.params (Written.params v)) : p.Keeps v := by
  intro path q hq
  cases path with
  | nil =>
    cases hq
    exact ⟨v, rfl, h⟩
  | cons down path =>
    rw [at?_cons] at hq
    obtain ⟨p', hp', hq⟩ := Option.bind_eq_some_iff.1 hq
    have hnext : ∃ v', down.pick (Written.alternatives v) (Written.params v) = some v' ∧ p'.Keeps v' := by
      cases down with
      | alternative i =>
        by_cases hmode : p.keyword? = none
        · exact forall₂_getElem? (has hmode) hp'
        · rw [alternatives_of_keyword hmode] at hp'
          cases hp'
      | param i => exact forall₂_getElem? hps hp'
    obtain ⟨v', hv', hkeeps⟩ := hnext
    obtain ⟨w, hw, hwritten⟩ := hkeeps path q hq
    refine ⟨w, ?_, hwritten⟩
    rw [Written.at?_cons, hv']
    exact hw

/-- Where the text goes on, the parameter does, unless it is a subcommand. -/
theorem Param.IsWritten.pick (h : q.IsWritten v) (hmode : q.keyword? ≠ none → Written.alternatives v = [])
    (hw : down.pick (Written.alternatives v) (Written.params v) = some w) :
    ∃ q', down.pick q.alternatives q.params = some q' := by
  cases down with
  | alternative i =>
    obtain ⟨hlt, -⟩ := List.getElem?_eq_some_iff.1 hw
    by_cases hkeyword : q.keyword? = none
    · exact ⟨_, List.getElem?_eq_getElem (h.alternatives hkeyword ▸ hlt)⟩
    · rw [hmode hkeyword] at hlt
      exact absurd hlt (Nat.not_lt_zero i)
  | param i =>
    obtain ⟨hlt, -⟩ := List.getElem?_eq_some_iff.1 hw
    exact ⟨_, List.getElem?_eq_getElem (h.params ▸ hlt)⟩

/-- A parameter has all that is listed exactly if no subcommand lists alternatives. -/
theorem Param.Keeps.complete_iff (h : p.Keeps v) :
    (∀ path w, Written.at? v path = some w → ∃ q, p.at? path = some q) ↔
      ∀ path q w, p.at? path = some q → Written.at? v path = some w → q.keyword? ≠ none →
        Written.alternatives w = [] := by
  constructor
  · intro hall path q w hq hw hmode
    by_contra hne
    obtain ⟨u, us, hu⟩ := List.exists_cons_of_ne_nil hne
    have hlisted : Written.at? v (path ++ [.alternative 0]) = some u := by
      rw [Written.at?_snoc, hw, Option.bind_some, Down.pick, hu]
      rfl
    obtain ⟨q', hq'⟩ := hall _ u hlisted
    rw [at?_snoc, hq, Option.bind_some, Down.pick, alternatives_of_keyword hmode] at hq'
    cases hq'
  · intro hmode path
    induction path using List.reverseRecOn with
    | nil => exact fun _ _ => ⟨p, rfl⟩
    | append_singleton path down ih =>
      intro w hw
      rw [Written.at?_snoc] at hw
      obtain ⟨u, hu, hw⟩ := Option.bind_eq_some_iff.1 hw
      obtain ⟨q, hq⟩ := ih u hu
      obtain ⟨u', hu', hwritten⟩ := h path q hq
      obtain rfl := Option.some.inj (hu.symm.trans hu')
      obtain ⟨q', hq'⟩ := hwritten.pick (hmode path q u hq hu) hw
      refine ⟨q', ?_⟩
      rw [at?_snoc, hq]
      exact hq'

end

/-! ## Drafts -/

namespace Param

/-- The names of a parameter's members. -/
def memberNames : List String :=
  ["name", "help", "ptype", "mode", "optional", "order", "test", "value", "alternatives", "params"]

/-- The outline of a parameter's text. -/
def outlined (text : String) : Except Fault Value := whole (outline memberNames) text

def IsString (s : String) (v : Value) : Prop := v = .string s

/-- The members that make up the tree, as far as they are known, against the values at their
    names and places. -/
structure Tree (K : Param → Value → Prop) (name type : Option String) (alternatives params : Option (List Param))
    (at_ : String → Nat → Option Value) : Prop where
  name : Option.Rel IsString name (at_ "name" 0)
  type : Option.Rel IsString type (at_ "ptype" 2)
  alternatives : Option.Rel (Listed K) alternatives (at_ "alternatives" 8)
  params : Option.Rel (Listed K) params (at_ "params" 9)

/-- A draft and the members it was read from so far. -/
abbrev Draft.OfMembers (K : Param → Value → Prop) (d : Draft) (ms : List (String × Value)) : Prop :=
  Tree K d.name d.type d.alternatives d.params fun name _ => ms.lookup name

/-- The members of a parameter and the value they were read from. -/
structure Flat.Of (K : Param → Value → Prop) (m : Flat) (v : Value) : Prop where
  name : m.draft.name = some m.name
  type : m.draft.type = some m.type
  tree : Tree K m.draft.name m.draft.type m.draft.alternatives m.draft.params (Written.field? v)

variable {α : Type} {V : α → Value → Prop} {K : Param → Value → Prop} {levels : Nat} {nested : Read Param}
  {below : Read Value} {c : Cursor} {name key : String} {v : Value} {ms : List (String × Value)} {m : Flat} {p : Param}
  {d : Draft}

theorem lookup_push_ne (h : (key == name) = false) : (ms ++ [(name, v)]).lookup key = ms.lookup key := by
  rw [List.lookup_append, List.lookup_cons, h]
  exact Option.or_none

/-- A member that was not known is known behind the others. -/
theorem rel_lookup_push {known : Option α} {a : α} (hrel : Option.Rel V known (ms.lookup name)) (hknown : known = none)
    (hv : V a v) : Option.Rel V (some a) ((ms ++ [(name, v)]).lookup name) := by
  subst hknown
  cases h : ms.lookup name with
  | none =>
    rw [List.lookup_append, h, List.lookup_cons, beq_self_eq_true]
    exact .some hv
  | some w =>
    rw [h] at hrel
    cases hrel

/-- A member that is no part of the tree. -/
theorem Draft.OfMembers.push (hd : d.OfMembers K ms)
    (hname : ["name", "ptype", "alternatives", "params"].contains name = false) :
    d.OfMembers K (ms ++ [(name, v)]) := by
  simp only [List.contains_cons, List.contains_nil, Bool.or_false, Bool.or_eq_false_iff] at hname
  obtain ⟨h1, h2, h3, h4⟩ := hname
  refine ⟨?_, ?_, ?_, ?_⟩
  · rw [lookup_push_ne (BEq.comm.trans h1)]
    exact hd.name
  · rw [lookup_push_ne (BEq.comm.trans h2)]
    exact hd.type
  · rw [lookup_push_ne (BEq.comm.trans h3)]
    exact hd.alternatives
  · rw [lookup_push_ne (BEq.comm.trans h4)]
    exact hd.params

section

variable (hbelow : Begins below) (hnested : ∀ c, Alongside nested below K c)

include hbelow in
theorem alongside_mode : Alongside (modeRead levels) (outlineAt memberNames levels below) Whatever c := by
  refine alongside_variant hbelow fun name tag h => ?_
  have hname : ∀ n ∈ ModeTag.names, memberNames.contains n.1 = false := by decide
  obtain ⟨before, after, hsplit, -⟩ := List.lookup_eq_some_iff.1 h
  exact hname (name, tag) (by simp [hsplit])

include hnested in
theorem alongside_nested :
    Alongside (list levels fun _ => nested) (outlineAt memberNames levels below) (Listed K) c :=
  alongside_list fun _ => hnested

include hbelow hnested in
theorem alongside_draftMember (d : Draft) (ms : List (String × Value)) (name : String) (c : Cursor)
    (hd : d.OfMembers K ms) :
    Alongside (d.member levels nested name) (outlineMember memberNames (outlineAt memberNames levels below) ms name)
      (Draft.OfMembers K) c := by
  have hstring : ∀ c, Alongside string (outlineAt memberNames levels below) IsString c := fun _ => alongside_string
  have hbool : ∀ c, Alongside bool (outlineAt memberNames levels below) Whatever c := fun _ => alongside_bool
  have horNull : ∀ c, Alongside (orNull string) (outlineAt memberNames levels below) Whatever c :=
    fun _ => alongside_orNull hstring
  have hmode : ∀ c, Alongside (modeRead levels) (outlineAt memberNames levels below) Whatever c :=
    fun _ => alongside_mode hbelow
  have hlist : ∀ c, Alongside (list levels fun _ => nested) (outlineAt memberNames levels below) (Listed K) c :=
    fun _ => alongside_nested hnested
  unfold Draft.member
  split
  · refine alongside_once rfl hstring fun s v hknown hv => ⟨rel_lookup_push hd.name hknown hv, ?_, ?_, ?_⟩
    all_goals rw [lookup_push_ne rfl]
    exacts [hd.type, hd.alternatives, hd.params]
  · exact alongside_once rfl horNull fun _ _ _ _ => hd.push rfl
  · refine alongside_once rfl hstring fun s v hknown hv => ⟨?_, rel_lookup_push hd.type hknown hv, ?_, ?_⟩
    all_goals rw [lookup_push_ne rfl]
    exacts [hd.name, hd.alternatives, hd.params]
  · exact alongside_once rfl hmode fun _ _ _ _ => hd.push rfl
  · exact alongside_once rfl hbool fun _ _ _ _ => hd.push rfl
  · exact alongside_once rfl hbool fun _ _ _ _ => hd.push rfl
  · exact alongside_once rfl horNull fun _ _ _ _ => hd.push rfl
  · exact alongside_once rfl horNull fun _ _ _ _ => hd.push rfl
  · refine alongside_once rfl hlist fun ps v hknown hv => ⟨?_, ?_, rel_lookup_push hd.alternatives hknown hv, ?_⟩
    all_goals rw [lookup_push_ne rfl]
    exacts [hd.name, hd.type, hd.params]
  · refine alongside_once rfl hlist fun ps v hknown hv => ⟨?_, ?_, ?_, rel_lookup_push hd.params hknown hv⟩
    all_goals rw [lookup_push_ne rfl]
    exacts [hd.name, hd.type, hd.alternatives]
  · next h1 h2 h3 h4 h5 h6 h7 h8 h9 h10 =>
    have hname : memberNames.contains name = false := by
      simp only [memberNames, List.contains_eq_mem, List.mem_cons, List.not_mem_nil, or_false, not_or, decide_eq_false_iff_not]
      exact ⟨h1, h2, h3, h4, h5, h6, h7, h8, h9, h10⟩
    rw [outlineMember, hname]
    exact .step fun _ _ => .pure hd

include hbelow hnested in
theorem fields_ofArray : Fields (outlineAt memberNames levels below) true (ofArray levels nested)
    fun m vs => m.Of K (.array vs) := by
  have hstring : ∀ c, Alongside string (outlineAt memberNames levels below) IsString c := fun _ => alongside_string
  have hbool : ∀ c, Alongside bool (outlineAt memberNames levels below) Whatever c := fun _ => alongside_bool
  have horNull : ∀ c, Alongside (orNull string) (outlineAt memberNames levels below) Whatever c :=
    fun _ => alongside_orNull hstring
  have hmode : ∀ c, Alongside (modeRead levels) (outlineAt memberNames levels below) Whatever c :=
    fun _ => alongside_mode hbelow
  have hlist : ∀ c, Alongside (list levels fun _ => nested) (outlineAt memberNames levels below) (Listed K) c :=
    fun _ => alongside_nested hnested
  refine .position hstring fun name => ?_
  split
  · exact .never ensures_refuse
  refine .position horNull fun help => .position hstring fun type => ?_
  split
  · exact .never ensures_refuse
  refine .position hmode fun mode => .position hbool fun isOptional => .position hbool fun isOrdered => ?_
  refine .position horNull fun test => .position horNull fun value => .position hlist fun alternatives => ?_
  refine .position hlist fun params => .pure ?_
  -- Each field is the first of the elements that the fields before it have left.
  rintro _ _ rfl hparams _ rfl halternatives _ rfl - _ rfl - _ rfl - _ rfl - _ rfl - _ rfl htype _ rfl - vs rfl hname
  simp only [List.head?_eq_getElem?, List.getElem?_tail] at hparams halternatives htype hname
  exact ⟨rfl, rfl, hname, htype, halternatives, hparams⟩

theorem finish_ok {c' : Cursor} (h : d.finish c = .ok (m, c')) :
    m.draft = d ∧ d.name = some m.name ∧ d.type = some m.type ∧ c' = c := by
  obtain ⟨name, c1, hname, h1⟩ := bind_ok.1 h
  obtain ⟨type, c2, htype, h2⟩ := bind_ok.1 h1
  cases h2
  obtain ⟨hname', rfl⟩ := required_ok hname
  obtain ⟨htype', rfl⟩ := required_ok htype
  exact ⟨rfl, hname', htype', rfl⟩

include hbelow hnested in
theorem alongside_flat : Alongside (record (levels + 1) "struct RawParam"
      (fun inner => do (← object {} (Draft.member inner nested)).finish) (fun inner => ofArray inner nested))
    (outlineAt memberNames (levels + 1) (outlineAt memberNames levels below)) (Flat.Of K) c := by
  refine alongside_record (begins_outlineAt hbelow) (fun n c hn => ?_) fun n hn => ?_
  · cases hn
    intro m c' hm
    obtain ⟨d, e, hd, hm⟩ := bind_ok.1 hm
    obtain ⟨rfl, hname, htype, rfl⟩ := finish_ok hm
    have hempty : Draft.OfMembers K {} [] := ⟨.none, .none, .none, .none⟩
    obtain ⟨ms, hms, htree⟩ := alongside_object (alongside_draftMember hbelow hnested) hempty _ _ hd
    exact ⟨ms, hms, hname, htype, htree⟩
  · cases hn
    exact fields_ofArray hbelow hnested

end

/-! ## Complete parameters -/

theorem forall₂_listed {o : Option (List Param)} {w : Option Value} (h : Option.Rel (Listed K) o w) :
    List.Forall₂ K (o.getD []) (Written.listed w) := by
  cases h with
  | none => exact .nil
  | some h =>
    obtain ⟨vs, rfl, hvs⟩ := h
    exact hvs

theorem eq_of_rel_isString {text : String} {o : Option Value} (h : Option.Rel IsString (some text) o) :
    o = some (.string text) := by
  cases h with
  | some h => rw [h]

/-- What a mode keeps of the alternatives and parameters that are listed. -/
theorem modeOf_keeps {tag : ModeTag} {value : Option String} {as ps : List Param}
    (h : modeOf name tag value as ps = .ok p.mode) :
    (p.keyword? = none → p.alternatives = as) ∧ (p.isSwitch = true → as ≠ [] ∧ ps = []) := by
  obtain ⟨_, _, _, mode, _, _, _, _⟩ := p
  cases mode with
  | ordinary =>
    refine ⟨fun _ => ?_, fun hswitch => by cases hswitch⟩
    cases tag with
    | ordinary =>
      simp only [modeOf] at h
      split at h
      · next hempty => exact (List.isEmpty_iff.1 hempty).symm
      · cases h
    | switch =>
      simp only [modeOf] at h
      split at h
      · cases h
      split at h <;> cases h
    | subcommand => cases h
  | switch bs =>
    obtain ⟨rfl, hswitch⟩ := modeOf_switch h
    exact ⟨fun _ => rfl, fun _ => hswitch⟩
  | subcommand =>
    refine ⟨fun hkeyword => ?_, fun hswitch => ?_⟩
    · cases hkeyword
    · cases hswitch

theorem keeps_of_complete (hm : m.Of Keeps v) (h : m.complete = .ok p) : p.Keeps v := by
  obtain ⟨mode, hmode, hp⟩ := complete_eq h
  have hname : m.draft.name = some p.name := by rw [hm.name, hp]
  have htype : m.draft.type = some p.type := by rw [hm.type, hp]
  have hparams : m.draft.params.getD [] = p.params := by rw [hp]
  have hkept : modeOf m.name (m.draft.mode.getD .ordinary) (m.draft.value.getD none) (m.draft.alternatives.getD [])
      p.params = .ok p.mode := by rw [← hparams, hmode, hp]
  obtain ⟨halternatives, hswitch⟩ := modeOf_keeps hkept
  obtain ⟨hnameAt, htypeAt, halternativesAt, hparamsAt⟩ := hm.tree
  have has : List.Forall₂ Keeps (m.draft.alternatives.getD []) (Written.alternatives v) := forall₂_listed halternativesAt
  have hps : List.Forall₂ Keeps p.params (Written.params v) := hparams ▸ forall₂_listed hparamsAt
  refine keeps_of_nested ⟨?_, ?_, hps.length_eq, fun hkeyword => ?_, fun hlisted => ?_, fun hisSwitch => ?_⟩
    (fun hkeyword => ?_) hps
  · exact eq_of_rel_isString (hname ▸ hnameAt)
  · exact eq_of_rel_isString (htype ▸ htypeAt)
  · rw [halternatives hkeyword]
    exact has.length_eq
  · by_cases hkeyword : p.keyword? = none
    · refine .inl (isSwitch_of_alternatives fun hnil => hlisted ?_)
      rw [← halternatives hkeyword, hnil] at has
      exact List.forall₂_nil_left_iff.1 has
    · exact .inr hkeyword
  · obtain ⟨hne, hnil⟩ := hswitch hisSwitch
    refine ⟨fun hempty => hne ?_, ?_⟩
    · rw [hempty] at has
      exact List.forall₂_nil_right_iff.1 has
    · rw [hnil] at hps
      exact List.forall₂_nil_left_iff.1 hps
  · rw [halternatives hkeyword]
    exact has

theorem alongside_readAt (hbelow : Begins below) (hnested : ∀ c, Alongside nested below Keeps c) (c : Cursor) :
    Alongside (readAt (levels + 1) nested) (outlineAt memberNames (levels + 1) (outlineAt memberNames levels below))
      Keeps c := by
  intro p c' hp
  obtain ⟨m, d, hm, hp⟩ := bind_ok.1 hp
  obtain ⟨v, hv, hof⟩ := alongside_flat hbelow hnested m d hm
  rcases hcomplete : m.complete with e | q
  · rw [hcomplete] at hp
    cases hp
  · rw [hcomplete] at hp
    cases hp
    exact ⟨v, hv, keeps_of_complete hof hcomplete⟩

/-- A parameter is read alongside the outline of its text. -/
theorem alongside_read (levels : Nat) (c : Cursor) : Alongside (read levels) (outline memberNames levels) Keeps c := by
  have hnone : ∀ c, Alongside (failNext .tooDeep : Read Param) (failNext .tooDeep) Keeps c :=
    fun _ => .never ensures_failNext
  induction levels using Nat.strongRecOn generalizing c with
  | ind levels ih =>
    match levels with
    | 0 =>
      intro p c' hp
      exact absurd rfl ((ensures_readAt (P := fun _ => True) .trivial) c p c' hp).1
    | 1 => exact alongside_readAt follows_failNext hnone c
    | n + 2 => exact alongside_readAt (begins_outline n) (ih n (by omega)) c

end Param

/-- A text that gives a parameter has an outline, and what any path leads to in the parameter
    stands there in the outline: with its name, its type, the parameters that follow and, but
    for subcommands, its alternatives; switches have some, and nothing follows them. Nothing
    that is listed is lost if and only if no subcommand lists alternatives. -/
theorem nested_kept (text : String) (p : Param) (h : Param.ofText text = .ok p) : ∃ v, Param.outlined text = .ok v ∧
    (∀ path q, p.at? path = some q → ∃ w, Written.at? v path = some w ∧ q.IsWritten w) ∧
    ((∀ path w, Written.at? v path = some w → ∃ q, p.at? path = some q) ↔
      ∀ path q w, p.at? path = some q → Written.at? v path = some w → q.keyword? ≠ none →
        Written.alternatives w = []) := by
  obtain ⟨c, c', hread, hend⟩ := whole_ok_iff.1 h
  obtain ⟨v, hv, hkeeps⟩ := Param.alongside_read maxLevels _ p c hread
  exact ⟨v, whole_ok_iff.2 ⟨c, c', hv, hend⟩, hkeeps, hkeeps.complete_iff⟩

namespace Sample

/-- A switch between a port, which a unit follows, and a name. -/
def targetText : String :=
  "[\"target\", null, \"WORD\", \"switch\", false, false, null, null, [" ++
    "\x7b\"name\": \"port\", \"ptype\": \"NUM\", \"note\": 1e999, \"params\": [[\"unit\", null, \"NUM\"]]\x7d," ++
    "[\"name\", null, \"WORD\"]]]"

/-- A subcommand that lists an alternative. -/
def lostText : String :=
  "\x7b\"name\":\"go\",\"ptype\":\"T\",\"mode\":\"subcommand\"," ++
    "\"alternatives\":[\x7b\"name\":\"a\",\"ptype\":\"T\"\x7d]\x7d"

end Sample

open Sample in
set_option maxRecDepth 1000 in
/-- The unit stands two steps below the switch, in the parameter and in its text. -/
theorem target_kept : ∃ p v, Param.ofText targetText = .ok p ∧ Param.outlined targetText = .ok v ∧
    ∃ q w, p.at? [.alternative 0, .param 0] = some q ∧ Written.at? v [.alternative 0, .param 0] = some w ∧
      q.name = "unit" ∧ q.IsWritten w := by
  have hunit : (Param.ofText targetText).toOption.bind (fun p => (p.at? [.alternative 0, .param 0]).map Param.name) =
      some "unit" := by
    have hchars : targetText.toList = _ :=
      String.toList_append.trans (congrArg₂ (· ++ ·)
        (String.toList_append.trans (congrArg₂ (· ++ ·) String.toList_ofList String.toList_ofList)) String.toList_ofList)
    rw [Param.ofText, whole, Cursor.ofText, hchars]
    decide +kernel
  rcases hread : Param.ofText targetText with e | p
  · rw [hread] at hunit
    cases hunit
  · rw [hread] at hunit
    obtain ⟨q, hq, hname⟩ := Option.map_eq_some_iff.1 hunit
    obtain ⟨v, hv, hkept, -⟩ := nested_kept targetText p hread
    obtain ⟨w, hw, hwritten⟩ := hkept _ q hq
    exact ⟨p, v, rfl, hv, q, w, hq, hw, hname, hwritten⟩

open Sample in
/-- The alternative of a subcommand is listed, and is not there. -/
theorem alternative_lost : ∃ p v, Param.ofText lostText = .ok p ∧ Param.outlined lostText = .ok v ∧
    (Written.at? v [.alternative 0]).isSome = true ∧ p.at? [.alternative 0] = none := by
  have hchars : lostText.toList = _ :=
    String.toList_append.trans (congrArg₂ (· ++ ·) String.toList_ofList String.toList_ofList)
  have hlost : (Param.ofText lostText).toOption.map (fun p => (p.at? [.alternative 0]).isSome) = some false := by
    rw [Param.ofText, whole, Cursor.ofText, hchars]
    decide +kernel
  have hlisted : (Param.outlined lostText).toOption.map (fun v => (Written.at? v [.alternative 0]).isSome) =
      some true := by
    rw [Param.outlined, whole, Cursor.ofText, hchars]
    decide +kernel
  rcases hread : Param.ofText lostText with e | p
  · rw [hread] at hlost
    cases hlost
  rcases houtlined : Param.outlined lostText with e | v
  · rw [houtlined] at hlisted
    cases hlisted
  rw [hread] at hlost
  rw [houtlined] at hlisted
  exact ⟨p, v, rfl, rfl, Option.some.inj hlisted, by simpa using Option.some.inj hlost⟩

end LineMatch
