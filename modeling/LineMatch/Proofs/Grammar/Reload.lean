/-
  LineMatch.Proofs.Grammar.Reload — a grammar that was written is read back.

  The members of each record are followed in the order they are written in, from the empty
  draft to one that finishes as the record. Members that are left out stand for what the
  draft has where nothing was read.

  Proved:
  - `reads_action`, `reads_type`, `reads_param`, `reads_command`: each record is read back,
    a parameter at any depth that can be read.
  - `ofMembers_members`: the members a method is written as are judged to be the method.
  - `ofText_written`: what is written of a grammar that was read and checked gives it again,
    on one line or on many.
-/

import LineMatch.Grammar.Written
import LineMatch.Proofs.Comments
import LineMatch.Proofs.Grammar.Readable
import LineMatch.Proofs.Json.Reads

namespace LineMatch

open LineMatch.Json
open LineMatch.Json.Read

variable {σ : Type} {l : Layout} {depth levels : Nat} {member : σ → String → Read σ} {name : String}

/-! ## Members that may be left out -/

theorem reads_string {s : String} : Reads string (l.write depth (.string s)) s := by
  rw [Layout.write]
  exact reads_stringAs

theorem reads_orNull_string {s : String} : Reads (orNull string) (l.write depth (.string s)) (some s) := by
  rw [Layout.write]
  exact reads_orNull reads_stringAs (by decide) (by decide)

theorem reads_bool_true : Reads bool (l.write depth (.bool true)) true := by
  rw [Layout.write]
  exact reads_true

/-- `set` puts the value of a member into the draft; a member that is left out is put in as
    none. -/
theorem membersTo_option {α : Type} (name : String) (o : Option α) (toValue : α → Value)
    (set : Option (Option α) → σ)
    (h : ∀ a ∈ o, ReadsMember l (member (set none) name) (l.write depth (toValue a)) (set (some (some a)))) :
    MembersTo l depth member (set none) (optionMember name (o.map toValue)) (set (o.map some)) := by
  cases o with
  | none => exact .nil
  | some a => exact .one (h a rfl)

theorem membersTo_optional (name : String) (o : Option String) (set : Option (Option String) → σ)
    (h : ∀ s, ReadsMember l (member (set none) name) (l.write depth (.string s)) (set (some (some s)))) :
    MembersTo l depth member (set none) (optionalMember name o) (set (o.map some)) :=
  membersTo_option name o .string set fun s _ => h s

theorem membersTo_true (name : String) (b : Bool) (set : Option Bool → σ)
    (h : ReadsMember l (member (set none) name) (l.write depth (.bool true)) (set (some true))) :
    MembersTo l depth member (set none) (trueMember name b) (set (if b then some true else none)) := by
  cases b with
  | false => exact .nil
  | true => exact .one h

theorem paramsToJson_eq (ps : List Param) : paramsToJson ps = ps.map Param.toJson := by
  induction ps with
  | nil => rfl
  | cons p ps ih => rw [paramsToJson, ih, List.map_cons]

theorem membersTo_params (name : String) (ps : List Param) (set : Option (List Param) → σ)
    (h : ps ≠ [] →
      ReadsMember l (member (set none) name) (l.write depth (.array (paramsToJson ps))) (set (some ps))) :
    MembersTo l depth member (set none) (listMember name (paramsToJson ps))
      (set (if ps.isEmpty then none else some ps)) := by
  cases ps with
  | nil => exact .nil
  | cons p ps => exact .one (h nofun)

/-! ## Actions -/

theorem reads_action (a : Action) : Reads (Action.read (levels + 1)) (l.write depth a.toJson) a := by
  have hscript : MembersTo l (depth + 1) Action.Draft.member {} [("script", .string a.script)]
      ⟨some a.script, none⟩ := .one ((readsMember_once reads_string).bind fun _ => .pure)
  have hshell : MembersTo l (depth + 1) Action.Draft.member ⟨some a.script, none⟩
      (optionalMember "shell" a.shell) ⟨some a.script, a.shell.map some⟩ :=
    membersTo_optional "shell" a.shell (Action.Draft.mk (some a.script)) fun s =>
      (readsMember_once reads_orNull_string).bind fun _ => .pure
  refine reads_record (hscript.append hshell) fun x => ?_
  rcases a with ⟨script, _ | shell⟩ <;> exact .pure

/-! ## Parameters -/

namespace Param

/-- The tag a mode is written as. -/
def tagOf : Mode Param → ModeTag
  | .ordinary => .ordinary
  | .switch _ => .switch
  | .subcommand _ => .subcommand

theorem lookup_modeName (m : Mode Param) : ModeTag.names.lookup m.name = some (tagOf m) := by
  cases m <;> rfl

/-- The draft that the members of a written parameter make. -/
def Draft.ofParam (p : Param) : Draft where
  name := some p.name
  help := p.help.map some
  type := some p.type
  mode := some (tagOf p.mode)
  isOptional := if p.isOptional then some true else none
  isOrdered := if p.isOrdered then some true else none
  test := p.test.map some
  value := p.keyword?.map some
  alternatives := if p.alternatives.isEmpty then none else some p.alternatives
  params := if p.params.isEmpty then none else some p.params

/-- The members of a written parameter. -/
def members (p : Param) : List (String × Value) :=
  [("name", .string p.name)] ++ optionalMember "help" p.help ++
    [("ptype", .string p.type), ("mode", .string p.mode.name)] ++
    trueMember "optional" p.isOptional ++ trueMember "order" p.isOrdered ++ optionalMember "test" p.test ++
    optionalMember "value" p.keyword? ++ listMember "alternatives" (paramsToJson p.alternatives) ++
    listMember "params" (paramsToJson p.params)

theorem toJson_eq (p : Param) : p.toJson = .object (members p) := by
  obtain ⟨name, help, type, mode, isOptional, isOrdered, test, params⟩ := p
  cases mode <;> simp only [Param.toJson] <;> rfl

theorem membersTo_param {nested : Read Param} (p : Param)
    (hlist : ∀ ps, ps = p.alternatives ∨ ps = p.params → ps ≠ [] →
      Reads (list levels fun _ => nested) (l.write (depth + 1) (.array (paramsToJson ps))) ps) :
    MembersTo l (depth + 1) (Draft.member levels nested) {} (members p) (Draft.ofParam p) := by
  let n := some p.name
  let h := p.help.map some
  let t := some p.type
  let m := some (tagOf p.mode)
  let o := if p.isOptional then some true else none
  let r := if p.isOrdered then some true else none
  let c := p.test.map some
  let k := p.keyword?.map some
  let a := if p.alternatives.isEmpty then none else some p.alternatives
  have hname : MembersTo l (depth + 1) (Draft.member levels nested) {} [("name", .string p.name)]
      { name := n } := .one ((readsMember_once reads_string).bind fun _ => .pure)
  have hhelp := hname.append (membersTo_optional "help" p.help (Draft.mk n · none none none none none none none none)
    fun s => (readsMember_once reads_orNull_string).bind fun _ => .pure)
  have htype : MembersTo l (depth + 1) (Draft.member levels nested) { name := n, help := h }
      [("ptype", .string p.type), ("mode", .string p.mode.name)]
      { name := n, help := h, type := t, mode := m } := by
    refine .cons ((readsMember_once reads_string).bind fun _ => .pure) (.one ?_)
    rw [Layout.write]
    exact (readsMember_once (reads_variant (lookup_modeName p.mode))).bind fun _ => .pure
  have hoptional := (hhelp.append htype).append (membersTo_true "optional" p.isOptional
    (Draft.mk n h t m · none none none none none)
    ((readsMember_once reads_bool_true).bind fun _ => .pure))
  have hordered := hoptional.append (membersTo_true "order" p.isOrdered
    (Draft.mk n h t m o · none none none none)
    ((readsMember_once reads_bool_true).bind fun _ => .pure))
  have htest := hordered.append (membersTo_optional "test" p.test
    (Draft.mk n h t m o r · none none none)
    fun s => (readsMember_once reads_orNull_string).bind fun _ => .pure)
  have hvalue := htest.append (membersTo_optional "value" p.keyword? (Draft.mk n h t m o r c · none none)
    fun s => (readsMember_once reads_orNull_string).bind fun _ => .pure)
  have halternatives := hvalue.append (membersTo_params "alternatives" p.alternatives (Draft.mk n h t m o r c k · none)
    fun hne => (readsMember_once (hlist _ (.inl rfl) hne)).bind fun _ => .pure)
  exact halternatives.append (membersTo_params "params" p.params (Draft.mk n h t m o r c k a)
    fun hne => (readsMember_once (hlist _ (.inr rfl) hne)).bind fun _ => .pure)

theorem complete_ofParam {p : Param} (hrule : p.SwitchRule) :
    Flat.complete ⟨p.name, p.type, Draft.ofParam p⟩ = .ok p := by
  obtain ⟨name, help, type, mode, isOptional, isOrdered, test, params⟩ := p
  have hflag (b : Bool) : (if b then some true else none).getD false = b := by cases b <;> rfl
  have hjoin (o : Option String) : (o.map some).getD none = o := by cases o <;> rfl
  have hlist (ps : List Param) : (if ps.isEmpty then none else some ps).getD [] = ps := by cases ps <;> rfl
  simp only [Flat.complete, Draft.ofParam, hflag, hjoin, hlist]
  cases mode with
  | ordinary => rfl
  | subcommand => rfl
  | switch as =>
    obtain ⟨hne, hparams⟩ := hrule as rfl
    have hmode : modeOf name .switch none as params = .ok (.switch as) := by
      have hps : params = [] := hparams
      simp [modeOf, hne, hps]
    simp only [alternatives, tagOf, keyword?, Option.getD_some, hmode]
    rfl

theorem beginsValue_toJson (p : Param) : BeginsValue (l.write depth p.toJson) := by
  rw [toJson_eq]
  exact beginsValue_object

theorem reads_readAt {nested : Read Param} {p : Param} (hrule : p.SwitchRule)
    (hlist : ∀ ps, ps = p.alternatives ∨ ps = p.params → ps ≠ [] →
      Reads (list levels fun _ => nested) (l.write (depth + 1) (.array (paramsToJson ps))) ps) :
    Reads (readAt (levels + 1) nested) (l.write depth p.toJson) p := by
  have hflat : Reads (record (levels + 1) "struct RawParam"
      (fun inner => do (← object {} (Draft.member inner nested)).finish)
      (fun inner => ofArray inner nested)) (l.write depth p.toJson) ⟨p.name, p.type, Draft.ofParam p⟩ := by
    rw [toJson_eq]
    exact reads_record (membersTo_param p hlist) fun _ => .pure
  refine hflat.bind fun x => ?_
  rw [complete_ofParam hrule]
  exact .pure

theorem reads_param {p : Param} (h : p.Readable levels) : Reads (read levels) (l.write depth p.toJson) p := by
  induction levels using Nat.strongRecOn generalizing p depth with
  | ind levels ih =>
    match levels, h with
    | 1, h =>
      refine reads_readAt h.1 fun ps hps hne => ?_
      obtain ⟨has, hparams⟩ := List.append_eq_nil_iff.1 h.2
      rcases hps with rfl | rfl
      · exact absurd has hne
      · exact absurd hparams hne
    | n + 2, h =>
      refine reads_readAt h.1 fun ps hps _ => ?_
      have hchild (q : Param) (hq : q ∈ ps) : q.Readable n := by
        refine h.2 q ?_
        rcases hps with rfl | rfl
        · exact List.mem_append_left _ hq
        · exact List.mem_append_right _ hq
      rw [paramsToJson_eq, Layout.write, Layout.elements_eq, List.map_map]
      exact reads_list fun q hq => ⟨ih n (by omega) (hchild q hq), beginsValue_toJson q⟩

end Param

/-! ## Types -/

namespace Judge

theorem signed_int {i : Int} (h : Number.minSigned ≤ i ∧ i ≤ Number.maxSigned) : signed (.int i) = .ok i := by
  cases i with
  | ofNat n =>
    have hle : Int.ofNat n ≤ Number.maxSigned := h.2
    simp only [Value.int, Number.ofInt, signed, hle, if_true]
    rfl
  | negSucc n => rfl

theorem orNull_bound {α : Type} {judge : Value → Judge α} {toValue : α → Value} {o : Option α}
    (h : ∀ a ∈ o, judge (toValue a) = .ok a ∧ toValue a ≠ .null) :
    orNull judge (boundValue toValue o) = .ok o := by
  cases o with
  | none => rfl
  | some a =>
    obtain ⟨hjudge, hnull⟩ := h a rfl
    rw [boundValue]
    unfold orNull
    split
    · next he => exact absurd he hnull
    · rw [hjudge]
      rfl

theorem choices_written (options : List String) :
    choices (.array (options.map fun o => .object [("name", .string o)])) = .ok options := by
  rw [choices]
  induction options with
  | nil => rfl
  | cons o options ih =>
    rw [List.map_cons, List.mapM_cons, ih]
    rfl

theorem action_written (a : Action) : action a.toJson = .ok a := by
  rcases a with ⟨script, _ | shell⟩ <;> rfl

end Judge

namespace Method

theorem boundMembers_written {α : Type} {judge : Value → Judge α} {toValue : α → Value} {min max : Option α}
    (hmin : ∀ a ∈ min, judge (toValue a) = .ok a ∧ toValue a ≠ .null)
    (hmax : ∀ a ∈ max, judge (toValue a) = .ok a ∧ toValue a ≠ .null) :
    [("min", boundValue toValue min), ("max", boundValue toValue max)].foldlM (boundMember judge) (none, none) =
      .ok (some min, some max) := by
  have h1 : boundMember judge (none, none) ("min", boundValue toValue min) = .ok (some min, none) := by
    simp only [boundMember, Judge.orNull_bound hmin]
    rfl
  have h2 : boundMember judge (some min, none) ("max", boundValue toValue max) = .ok (some min, some max) := by
    simp only [boundMember, Judge.orNull_bound hmax]
    rfl
  rw [List.foldlM_cons, h1]
  change [("max", boundValue toValue max)].foldlM (boundMember judge) (some min, none) = _
  rw [List.foldlM_cons, h2]
  rfl

/-- The members a method is written as are judged to be the method. -/
theorem ofMembers_members {m : Method} (h : m.Readable) : ofMembers m.members = .ok m := by
  cases m with
  | regexp pattern => rfl
  | integer min max =>
    have hbound (o : Option Int) (ho : ∀ i ∈ o, Number.minSigned ≤ i ∧ i ≤ Number.maxSigned) :
        ∀ i ∈ o, Judge.signed (.int i) = .ok i ∧ Value.int i ≠ .null :=
      fun i hi => ⟨Judge.signed_int (ho i hi), nofun⟩
    have hrest := boundMembers_written (hbound min h.1) (hbound max h.2)
    change ([("min", boundValue Value.int min), ("max", boundValue Value.int max)].foldlM
      (boundMember Judge.signed) (none, none) >>= fun b => pure (integer (b.1.getD none) (b.2.getD none))) = _
    rw [hrest]
    rfl
  | unsignedInteger min max =>
    have hbound (o : Option Nat) : ∀ n ∈ o, Judge.unsigned (.nat n) = .ok n ∧ Value.nat n ≠ .null :=
      fun n _ => ⟨rfl, nofun⟩
    have hrest := boundMembers_written (hbound min) (hbound max)
    change ([("min", boundValue Value.nat min), ("max", boundValue Value.nat max)].foldlM
      (boundMember Judge.unsigned) (none, none) >>= fun b =>
        pure (unsignedInteger (b.1.getD none) (b.2.getD none))) = _
    rw [hrest]
    rfl
  | select options =>
    change (onlyMember "options" Judge.choices
      [("options", .array (options.map fun o => .object [("name", .string o)]))] >>= fun os => pure (select os)) = _
    have honly : onlyMember "options" Judge.choices
        [("options", .array (options.map fun o => .object [("name", .string o)]))] = .ok options := by
      simp only [onlyMember, List.foldlM_cons, if_true, Judge.choices_written]
      rfl
    rw [honly]
    rfl
  | code action =>
    change (onlyMember "action" Judge.action [("action", action.toJson)] >>= fun a => pure (code a)) = _
    have honly : onlyMember "action" Judge.action [("action", action.toJson)] = .ok action := by
      simp only [onlyMember, List.foldlM_cons, if_true, Judge.action_written]
      rfl
    rw [honly]
    rfl

theorem fits_optional {o : Option String} : ∀ m ∈ optionalMember name o, Fits levels m.2 := by
  cases o with
  | none => nofun
  | some s =>
    intro m hm
    rw [List.mem_singleton.1 hm]
    simp [Fits]

theorem fits_int {i : Int} (h : Number.minSigned ≤ i ∧ i ≤ Number.maxSigned) : Fits levels (.int i) := by
  cases i with
  | ofNat n =>
    have hn : (n : Int) ≤ Number.maxSigned := h.2
    simp only [Value.int, Number.ofInt, Fits, Number.maxUnsigned, Number.maxSigned] at hn ⊢
    omega
  | negSucc n =>
    have hn : Number.minSigned ≤ Int.negSucc n := h.1
    have hpow : Nat.pow 2 63 = 9223372036854775808 := rfl
    simp only [Value.int, Number.ofInt, Fits, Number.minSigned, hpow] at hn ⊢
    omega

theorem fits_bound {α : Type} {toValue : α → Value} {o : Option α} (h : ∀ a ∈ o, Fits levels (toValue a)) :
    Fits levels (boundValue toValue o) := by
  cases o with
  | none => simp [boundValue, Fits]
  | some a => exact h a rfl

/-- The members of a method need two levels. -/
theorem fits_members {m : Method} (h : m.Readable) : ∀ x ∈ m.members, Fits (levels + 2) x.2 := by
  cases m with
  | regexp pattern => simp [members, Fits]
  | integer min max =>
    have hmin : Fits (levels + 2) (boundValue .int min) := fits_bound fun i hi => fits_int (h.1 i hi)
    have hmax : Fits (levels + 2) (boundValue .int max) := fits_bound fun i hi => fits_int (h.2 i hi)
    simp [members, Fits, hmin, hmax]
  | unsignedInteger min max =>
    have hnat (n : Nat) (hn : n ≤ Number.maxUnsigned) : Fits (levels + 2) (.nat n) := by
      simpa [Value.nat, Fits] using hn
    have hmin : Fits (levels + 2) (boundValue .nat min) := fits_bound fun n hn => hnat n (h.1 n hn)
    have hmax : Fits (levels + 2) (boundValue .nat max) := fits_bound fun n hn => hnat n (h.2 n hn)
    simp [members, Fits, hmin, hmax]
  | select options => simp [members, Fits]
  | code action =>
    have haction : Fits (levels + 2) action.toJson := by
      rw [Action.toJson, Fits]
      intro m hm
      rcases List.mem_append.1 hm with hm | hm
      · rw [List.mem_singleton.1 hm]
        simp [Fits]
      · exact fits_optional m hm
    simp [members, Fits, haction]

/-- None of the members of a method is one that all types have. -/
theorem member_name (m : Method) : ∀ x ∈ m.members, x.1 ≠ "name" ∧ x.1 ≠ "help" ∧ x.1 ≠ "preprocess" := by
  cases m <;> simp [members]

end Method

namespace ValueType

theorem lookup_preprocess (p : Preprocess) : preprocessNames.lookup p.name = some p := by
  cases p <;> rfl

theorem membersTo_others {ms : List (String × Value)} (d : Draft) (hfits : ∀ m ∈ ms, Fits levels m.2)
    (hname : ∀ m ∈ ms, m.1 ≠ "name" ∧ m.1 ≠ "help" ∧ m.1 ≠ "preprocess") :
    MembersTo l depth (Draft.member levels) d ms { d with others := ms.reverse ++ d.others } := by
  induction ms generalizing d with
  | nil => exact .nil
  | cons m ms ih =>
    obtain ⟨name, v⟩ := m
    rw [List.forall_mem_cons] at hfits hname
    have hmember : Draft.member levels d name = (do
        colon
        let v ← any levels
        pure { d with others := (name, v) :: d.others }) := by
      unfold Draft.member
      split
      · exact absurd rfl hname.1.1
      · exact absurd rfl hname.1.2.1
      · exact absurd rfl hname.1.2.2
      · rfl
    have hrest := ih { d with others := (name, v) :: d.others } hfits.2 hname.2
    rw [List.reverse_cons, List.append_assoc]
    refine .cons ?_ hrest
    rw [hmember]
    exact readsMember_colon (reads_any hfits.1) fun _ => .pure

theorem beginsValue_toJson (t : ValueType) : BeginsValue (l.write depth t.toJson) := beginsValue_object

/-- A type needs three levels. -/
theorem reads_type {t : ValueType} (h : t.Readable) : Reads (read (levels + 3)) (l.write depth t.toJson) t := by
  let n := some t.name
  let o := t.help.map some
  have hname : MembersTo l (depth + 1) (Draft.member (levels + 2)) {} [("name", .string t.name)]
      ⟨n, none, none, []⟩ := .one ((readsMember_once reads_string).bind fun _ => .pure)
  have hhelp := hname.append (membersTo_optional "help" t.help (Draft.mk n · none [])
    fun s => (readsMember_once reads_orNull_string).bind fun _ => .pure)
  have hmethod := hhelp.append (membersTo_others ⟨n, o, none, []⟩ (Method.fits_members h) t.method.member_name)
  have hpreprocess : MembersTo l (depth + 1) (Draft.member (levels + 2))
      ⟨n, o, none, t.method.members.reverse ++ []⟩ [("preprocess", .string t.preprocess.name)]
      ⟨n, o, some t.preprocess, t.method.members.reverse ++ []⟩ := by
    refine .one ?_
    rw [Layout.write]
    exact (readsMember_once (reads_variant (lookup_preprocess t.preprocess))).bind fun _ => .pure
  have hfinish (x : List Char) :
      ReadsTo (Draft.mk n o (some t.preprocess) (t.method.members.reverse ++ [])).finish x x t := by
    refine ReadsTo.bind .pure ?_
    rw [List.append_nil, List.reverse_reverse, Method.ofMembers_members h]
    rcases t with ⟨name, _ | help, method, preprocess⟩ <;> exact .pure
  intro gap rest hgap hrest
  refine ReadsTo.bind (readsTo_peekPastBlanks hgap t.beginsValue_toJson.solid) ?_
  have hbraces := readsTo_braces (hmethod.append hpreprocess) hfinish rest
  simp only [bind_assoc] at hbraces
  exact hbraces

end ValueType

/-! ## Commands and grammars -/

namespace Command

theorem beginsValue_toJson (c : Command) : BeginsValue (l.write depth c.toJson) := beginsValue_object

/-- A list of parameters. -/
theorem reads_params {ps : List Param} (h : ∀ p ∈ ps, p.Readable levels) :
    Reads (list (levels + 1) Param.read) (l.write depth (.array (paramsToJson ps))) ps := by
  rw [paramsToJson_eq, Layout.write, Layout.elements_eq, List.map_map]
  exact reads_list fun p hp => ⟨Param.reads_param (h p hp), p.beginsValue_toJson⟩

theorem reads_command {c : Command} (h : c.Readable (levels + 2)) :
    Reads (read (levels + 2)) (l.write depth c.toJson) c := by
  let n := some c.name
  let o := c.help.map some
  have hname : MembersTo l (depth + 1) (Draft.member (levels + 1)) {} [("name", .string c.name)]
      ⟨n, none, none, none, none⟩ := .one ((readsMember_once reads_string).bind fun _ => .pure)
  have hhelp := hname.append (membersTo_optional "help" c.help (Draft.mk n · none none none)
    fun s => (readsMember_once reads_orNull_string).bind fun _ => .pure)
  have hparams : MembersTo l (depth + 1) (Draft.member (levels + 1)) ⟨n, o, none, none, none⟩
      [("params", .array (paramsToJson c.params))] ⟨n, o, some c.params, none, none⟩ :=
    .one ((readsMember_once (reads_params h.1)).bind fun _ => .pure)
  have hargs := (hhelp.append hparams).append (membersTo_option "args" c.args Param.toJson
    (Draft.mk n o (some c.params) · none) fun p hp => by
      have hparam : Reads (Param.read (levels + 1)) (l.write (depth + 1) p.toJson) p := Param.reads_param (h.2 p hp)
      rw [Param.toJson_eq] at hparam ⊢
      exact (readsMember_once (reads_orNull_object hparam)).bind fun _ => .pure)
  have haction := hargs.append (membersTo_option "action" c.action Action.toJson
    (Draft.mk n o (some c.params) (c.args.map some)) fun a _ =>
      (readsMember_once (reads_orNull_object (reads_action a))).bind fun _ => .pure)
  refine reads_record haction fun x => ?_
  rcases c with ⟨name, _ | help, params, _ | args, _ | action⟩ <;> exact .pure

end Command

namespace Grammar

theorem reads_grammar {g : Grammar} (h : g.Readable (levels + 5)) :
    Reads (read (levels + 5)) (l.write depth g.toJson) g := by
  have htypes : MembersTo l (depth + 1) (Draft.member (levels + 4)) {}
      [("ptypes", .array (g.types.map ValueType.toJson))] ⟨some g.types, none⟩ := by
    refine .one ((readsMember_once ?_).bind fun _ => .pure)
    rw [Layout.write, Layout.elements_eq, List.map_map]
    exact reads_list fun t ht => ⟨ValueType.reads_type (h.1 t ht), t.beginsValue_toJson⟩
  have hcommands : MembersTo l (depth + 1) (Draft.member (levels + 4)) ⟨some g.types, none⟩
      [("commands", .array (g.commands.map Command.toJson))] ⟨some g.types, some g.commands⟩ := by
    refine .one ((readsMember_once ?_).bind fun _ => .pure)
    rw [Layout.write, Layout.elements_eq, List.map_map]
    exact reads_list fun c hc => ⟨Command.reads_command (h.2 c hc), c.beginsValue_toJson⟩
  exact reads_record (htypes.append hcommands) fun _ => .pure

theorem readText_write {g : Grammar} (h : g.Readable maxLevels) (l : Layout) :
    readText (String.ofList (l.write 0 g.toJson)) = .ok g := by
  rw [readText, strip_written, whole_eq (reads_grammar h)]
  rfl

theorem ofText_ok_iff {text : String} {g : Grammar} :
    ofText text = .ok g ↔ readText text = .ok g ∧ check g = .ok () := by
  unfold ofText
  rcases readText text with e | g'
  · refine ⟨fun h => ?_, fun h => ?_⟩
    · cases h
    · cases h.1
  rcases hcheck : check g' with defect | ⟨⟩
  · have hfail : (do (check g').mapError .defect; pure g' : Except Failure Grammar) = .error (.defect defect) := by
      rw [hcheck]
      rfl
    refine ⟨fun h => ?_, fun h => ?_⟩
    · cases hfail.symm.trans h
    · cases h.1
      cases hcheck.symm.trans h.2
  · have hpass : (do (check g').mapError .defect; pure g' : Except Failure Grammar) = .ok g' := by
      rw [hcheck]
      rfl
    refine ⟨fun h => ?_, fun h => ?_⟩
    · cases hpass.symm.trans h
      exact ⟨rfl, hcheck⟩
    · cases h.1
      exact hpass

/-- A grammar that was read and checked is read again from what is written of it, whatever
    the blanks. -/
theorem ofText_write {text : String} {g : Grammar} (h : ofText text = .ok g) (l : Layout) :
    ofText (String.ofList (l.write 0 g.toJson)) = .ok g := by
  obtain ⟨hread, hcheck⟩ := ofText_ok_iff.1 h
  exact ofText_ok_iff.2 ⟨readText_write (readable_of_read hread) l, hcheck⟩

/-- Both ways of writing a grammar that was read and checked give its texts. -/
theorem ofText_written {text : String} {g : Grammar} (h : ofText text = .ok g) :
    ofText g.toJson.compact = .ok g ∧ ofText g.toJson.pretty = .ok g := by
  have hcompact := ofText_write h Layout.compact
  have hpretty := ofText_write h Layout.pretty
  rw [← compact_eq, String.ofList_toList] at hcompact
  rw [← pretty_eq, String.ofList_toList] at hpretty
  exact ⟨hcompact, hpretty⟩

namespace Sample

/-- A type with a bound, and a command with a parameter, in arrays of their members. -/
def text : String :=
  "//\n[[\x7b\"name\":\"N\",\"method\":\"integer\",\"max\":-1\x7d],[[\"go\",null,[[\"up\",\"// up\",\"N\"]]]]]"

end Sample

theorem sample_written : ∃ g, ofText Sample.text = .ok g ∧
    g.types.map ValueType.method = [.integer none (some (-1))] ∧
    (g.commands.flatMap Command.params).map Param.help = [some "// up"] ∧
    ofText g.toJson.compact = .ok g ∧ ofText g.toJson.pretty = .ok g := by
  have h : (ofText Sample.text).toOption.map (fun g =>
      (g.types.map ValueType.method, (g.commands.flatMap Command.params).map Param.help)) =
        some ([.integer none (some (-1))], [some "// up"]) := by
    have hchars : Sample.text.toList = _ := String.toList_ofList
    rw [ofText, readText, Comments.strip, hchars, Json.Read.whole, Json.Cursor.ofText, String.toList_ofList]
    decide +kernel
  rcases hread : ofText Sample.text with e | g
  · rw [hread] at h
    cases h
  · rw [hread] at h
    obtain ⟨htypes, hhelp⟩ := Prod.mk.inj (Option.some.inj h)
    exact ⟨g, rfl, htypes, hhelp, ofText_written hread⟩

end Grammar

end LineMatch
