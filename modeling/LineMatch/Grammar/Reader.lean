/-
  LineMatch.Grammar.Reader — grammars from JSON.

  Each record is read into a draft, one member after the other; a member that occurs
  twice is refused as soon as its name is met, a member that is missing when the record
  ends. A type's method is judged once all its members are known. The rules between a
  parameter's mode and its other members are checked when the parameter is complete.
-/

import LineMatch.Grammar.Basic
import LineMatch.Json.Reader

namespace LineMatch

open LineMatch.Json
open LineMatch.Json.Read

/-! ## Actions -/

namespace Action

structure Draft where
  script : Option String := none
  shell : Option (Option String) := none

def Draft.member (d : Draft) (name : String) : Read Draft := do
  match name with
  | "script" => pure { d with script := ← once d.script name string }
  | "shell" => pure { d with shell := ← once d.shell name (orNull string) }
  | _ => skipMember; pure d

def Draft.finish (d : Draft) : Read Action := do
  pure ⟨← required d.script "script", d.shell.getD none⟩

def read (levels : Nat) : Read Action :=
  record levels "struct Action"
    (fun _ => do (← object {} Draft.member).finish)
    (fun _ => do
      match ← position true string with
      | none => refuse (.wrongLength 0 "struct Action with 2 elements")
      | some script => do
        let shell ← position false (orNull string)
        pure ⟨script, shell.getD none⟩)

end Action

/-! ## Types

  The members of a type that do not belong to all types are collected as values, and the
  method is read from the collection. -/

/-- Reading a value that is already known. -/
abbrev Judge (α : Type) := Except ShapeFault α

namespace Judge

def wrong {α : Type} (v : Value) (expected : String) : Judge α := .error (.wrongType v.found expected)

def string (v : Value) : Judge String :=
  match v with
  | .string s => pure s
  | _ => wrong v "a string"

def orNull {α : Type} (judge : Value → Judge α) (v : Value) : Judge (Option α) :=
  match v with
  | .null => pure none
  | _ => do pure (some (← judge v))

def signed (v : Value) : Judge Int :=
  match v with
  | .number (.nat n) =>
    if Int.ofNat n ≤ Number.maxSigned then pure n else .error (.outOfRange v.found "i64")
  | .number (.negative n) => pure (-(Int.ofNat n))
  | _ => wrong v "i64"

def unsigned (v : Value) : Judge Nat :=
  match v with
  | .number (.nat n) => pure n
  | .number (.negative _) => .error (.outOfRange v.found "u64")
  | _ => wrong v "u64"

/-- The value of a member that may occur once. -/
def once {α : Type} (known : Option α) (name : String) (value : Judge α) : Judge (Option α) :=
  if known.isSome then .error (.duplicateField name) else value.map some

def required {α : Type} (known : Option α) (name : String) : Judge α :=
  match known with
  | some a => pure a
  | none => .error (.missingField name)

/-- A list given for a record, with more elements than it has fields. -/
def tooLong {α : Type} (length fields : Nat) : Judge α :=
  let noun := if fields = 1 then " element" else " elements"
  .error (.wrongLength length (toString fields ++ noun ++ " in sequence"))

def actionMember (d : Action.Draft) (m : String × Value) : Judge Action.Draft := do
  match m.1 with
  | "script" => pure { d with script := ← once d.script m.1 (string m.2) }
  | "shell" => pure { d with shell := ← once d.shell m.1 (orNull string m.2) }
  | _ => pure d

def action (v : Value) : Judge Action := do
  match v with
  | .object ms =>
    let d ← ms.foldlM actionMember {}
    pure ⟨← required d.script "script", d.shell.getD none⟩
  | .array [] => .error (.wrongLength 0 "struct Action with 2 elements")
  | .array [script] => pure ⟨← string script, none⟩
  | .array (script :: shell :: more) =>
    let a : Action := ⟨← string script, ← orNull string shell⟩
    if more.isEmpty then pure a else tooLong (2 + more.length) 2
  | _ => wrong v "struct Action"

def optionMember (name : Option String) (m : String × Value) : Judge (Option String) :=
  match m.1 with
  | "name" => once name m.1 (string m.2)
  | _ => pure name

/-- One choice of a type that lists them. -/
def choice (v : Value) : Judge String := do
  match v with
  | .object ms => required (← ms.foldlM optionMember none) "name"
  | .array [] => .error (.wrongLength 0 "struct SelectOption with 1 element")
  | .array (name :: more) =>
    let name ← string name
    if more.isEmpty then pure name else tooLong (1 + more.length) 1
  | _ => wrong v "struct SelectOption"

def choices (v : Value) : Judge (List String) :=
  match v with
  | .array vs => vs.mapM choice
  | _ => wrong v "a sequence"

end Judge

namespace Method

inductive Tag where
  | regexp | integer | unsignedInteger | select | code
  deriving DecidableEq, Repr

def Tag.names : List (String × Tag) :=
  [("regexp", .regexp), ("integer", .integer), ("unsignedInteger", .unsignedInteger), ("select", .select),
   ("code", .code)]

/-- A method's tag, by its name or by its number. -/
def Tag.judge (v : Value) : Judge Tag :=
  match v with
  | .string s =>
    match Tag.names.lookup s with
    | some t => pure t
    | none => .error (.unknownVariant s (Tag.names.map Prod.fst))
  | .number (.nat n) =>
    match Tag.names[n]? with
    | some (_, t) => pure t
    | none => .error (.outOfRange v.found "variant index 0 <= i < 5")
  | _ => Judge.wrong v "variant identifier"

/-- The tag among the members, which occurs once. -/
def tagMember (tag : Option Tag) (m : String × Value) : Judge (Option Tag) :=
  if m.1 = "method" then Judge.once tag "method" (Tag.judge m.2) else pure tag

/-- A pair of bounds that is being collected. -/
abbrev Bounds (α : Type) := Option (Option α) × Option (Option α)

def boundMember {α : Type} (judge : Value → Judge α) (b : Bounds α) (m : String × Value) :
    Judge (Bounds α) := do
  match m.1 with
  | "min" => pure (← Judge.once b.1 m.1 (Judge.orNull judge m.2), b.2)
  | "max" => pure (b.1, ← Judge.once b.2 m.1 (Judge.orNull judge m.2))
  | _ => pure b

/-- The only member with this name, which must occur. -/
def onlyMember {α : Type} (name : String) (judge : Value → Judge α) (ms : List (String × Value)) :
    Judge α := do
  let found ← ms.foldlM (fun known m =>
    if m.1 = name then Judge.once known name (judge m.2) else pure known) none
  Judge.required found name

def ofMembers (ms : List (String × Value)) : Judge Method := do
  let tag ← Judge.required (← ms.foldlM tagMember none) "method"
  let rest := ms.filter (·.1 != "method")
  match tag with
  | .regexp => pure (.regexp (← onlyMember "pattern" Judge.string rest))
  | .integer => do
    let (min, max) ← rest.foldlM (boundMember Judge.signed) (none, none)
    pure (.integer (min.getD none) (max.getD none))
  | .unsignedInteger => do
    let (min, max) ← rest.foldlM (boundMember Judge.unsigned) (none, none)
    pure (.unsignedInteger (min.getD none) (max.getD none))
  | .select => pure (.select (← onlyMember "options" Judge.choices rest))
  | .code => pure (.code (← onlyMember "action" Judge.action rest))

end Method

namespace ValueType

structure Draft where
  name : Option String := none
  help : Option (Option String) := none
  preprocess : Option Preprocess := none
  /-- The other members, the last first. -/
  others : List (String × Value) := []

def preprocessNames : List (String × Preprocess) :=
  [("none", .none), ("toupper", .toUpper), ("tolower", .toLower)]

def Draft.member (levels : Nat) (d : Draft) (name : String) : Read Draft := do
  match name with
  | "name" => pure { d with name := ← once d.name name string }
  | "help" => pure { d with help := ← once d.help name (orNull string) }
  | "preprocess" =>
    let value := variant levels preprocessNames (preprocessNames.map Prod.fst)
    pure { d with preprocess := ← once d.preprocess name value }
  | _ => do
    colon
    let v ← any levels
    pure { d with others := (name, v) :: d.others }

def Draft.finish (d : Draft) : Read ValueType := do
  let name ← required d.name "name"
  match Method.ofMembers d.others.reverse with
  | .ok method => pure ⟨name, d.help.getD none, method, d.preprocess.getD .none⟩
  | .error cause => refuse cause

/-- A type is always written as an object. -/
def read (levels : Nat) : Read ValueType := do
  match ← peekPastBlanks with
  | none => failNext .endInValue
  | some '{' => descend levels fun inner => do
    let t ← (← object {} (Draft.member inner)).finish
    closeObject
    pure t
  | some _ => mismatch "struct PType"

end ValueType

/-! ## Parameters -/

namespace Param

/-- A rule between a parameter's mode and its other members that is broken. -/
inductive Misuse where
  | alternativesWithoutSwitch (name : String)
  | switchWithoutAlternatives (name : String)
  | switchWithParams (name : String)
  deriving Repr, DecidableEq

def Misuse.message : Misuse → String
  | alternativesWithoutSwitch name => "param '" ++ name ++ "': alternatives require mode \"switch\""
  | switchWithoutAlternatives name => "switch param '" ++ name ++ "' has no alternatives"
  | switchWithParams name =>
    "switch param '" ++ name ++ "' cannot have nested params; nest them under an alternative"

/-- The names of the modes. -/
inductive ModeTag where
  | ordinary | switch | subcommand
  deriving DecidableEq, Repr

def ModeTag.names : List (String × ModeTag) :=
  [("common", .ordinary), ("ordinary", .ordinary), ("switch", .switch), ("subcommand", .subcommand)]

structure Draft where
  name : Option String := none
  help : Option (Option String) := none
  type : Option String := none
  mode : Option ModeTag := none
  isOptional : Option Bool := none
  isOrdered : Option Bool := none
  test : Option (Option String) := none
  value : Option (Option String) := none
  alternatives : Option (List Param) := none
  params : Option (List Param) := none

/-- The mode of a complete draft. A keyword that is not given is the name. -/
def modeOf (name : String) (tag : ModeTag) (value : Option String) (alternatives params : List Param) :
    Except Misuse (Mode Param) :=
  match tag with
  | .ordinary => if alternatives.isEmpty then .ok .ordinary else .error (.alternativesWithoutSwitch name)
  | .switch =>
    if alternatives.isEmpty then .error (.switchWithoutAlternatives name)
    else if !params.isEmpty then .error (.switchWithParams name)
    else .ok (.switch alternatives)
  | .subcommand => .ok (.subcommand (value.getD name))

/-- The members of a parameter, before the rules between them are checked. -/
structure Flat where
  name : String
  type : String
  draft : Draft

/-- The parameter its members make. -/
def Flat.complete (m : Flat) : Except Misuse Param := do
  let d := m.draft
  let params := d.params.getD []
  let mode ← modeOf m.name (d.mode.getD .ordinary) (d.value.getD none) (d.alternatives.getD []) params
  pure ⟨m.name, d.help.getD none, m.type, mode, d.isOptional.getD false, d.isOrdered.getD false,
    d.test.getD none, params⟩

def Draft.finish (d : Draft) : Read Flat := do
  pure ⟨← required d.name "name", ← required d.type "ptype", d⟩

def modeRead (levels : Nat) : Read ModeTag := variant levels ModeTag.names (ModeTag.names.map Prod.fst)

/-- A member of a parameter; nested parameters are read by `nested`. -/
def Draft.member (levels : Nat) (nested : Read Param) (d : Draft) (name : String) : Read Draft := do
  match name with
  | "name" => pure { d with name := ← once d.name name string }
  | "help" => pure { d with help := ← once d.help name (orNull string) }
  | "ptype" => pure { d with type := ← once d.type name string }
  | "mode" => pure { d with mode := ← once d.mode name (modeRead levels) }
  | "optional" => pure { d with isOptional := ← once d.isOptional name bool }
  | "order" => pure { d with isOrdered := ← once d.isOrdered name bool }
  | "test" => pure { d with test := ← once d.test name (orNull string) }
  | "value" => pure { d with value := ← once d.value name (orNull string) }
  | "alternatives" =>
    pure { d with alternatives := ← once d.alternatives name (list levels fun _ => nested) }
  | "params" => pure { d with params := ← once d.params name (list levels fun _ => nested) }
  | _ => skipMember; pure d

/-- A parameter written as an array of its members. -/
def ofArray (levels : Nat) (nested : Read Param) : Read Flat := do
  let short {α : Type} (length : Nat) : Read α :=
    refuse (.wrongLength length "struct RawParam with 10 elements")
  match ← position true string with
  | none => short 0
  | some name => do
    let help ← position false (orNull string)
    match ← position false string with
    | none => short 2
    | some type => do
      let mode ← position false (modeRead levels)
      let isOptional ← position false bool
      let isOrdered ← position false bool
      let test ← position false (orNull string)
      let value ← position false (orNull string)
      let alternatives ← position false (list levels fun _ => nested)
      let params ← position false (list levels fun _ => nested)
      pure ⟨name, type,
        some name, help, some type, mode, isOptional, isOrdered, test, value, alternatives, params⟩

/-- A parameter at some level; those nested in it stand two levels below. -/
def readAt (levels : Nat) (nested : Read Param) : Read Param := do
  let flat ← record levels "struct RawParam"
    (fun inner => do (← object {} (Draft.member inner nested)).finish)
    (fun inner => ofArray inner nested)
  match flat.complete with
  | .ok p => pure p
  | .error misuse => refuse (.rule misuse.message)

def read : Nat → Read Param
  | 0 => readAt 0 (failNext .tooDeep)
  | 1 => readAt 1 (failNext .tooDeep)
  | levels + 2 => readAt (levels + 2) (read levels)

end Param

/-! ## Commands and grammars -/

namespace Command

structure Draft where
  name : Option String := none
  help : Option (Option String) := none
  params : Option (List Param) := none
  args : Option (Option Param) := none
  action : Option (Option Action) := none

def Draft.member (levels : Nat) (d : Draft) (name : String) : Read Draft := do
  match name with
  | "name" => pure { d with name := ← once d.name name string }
  | "help" => pure { d with help := ← once d.help name (orNull string) }
  | "params" => pure { d with params := ← once d.params name (list levels Param.read) }
  | "args" => pure { d with args := ← once d.args name (orNull (Param.read levels)) }
  | "action" => pure { d with action := ← once d.action name (orNull (Action.read levels)) }
  | _ => skipMember; pure d

def Draft.finish (d : Draft) : Read Command := do
  let name ← required d.name "name"
  pure ⟨name, d.help.getD none, d.params.getD [], d.args.getD none, d.action.getD none⟩

def read (levels : Nat) : Read Command :=
  record levels "struct Command"
    (fun inner => do (← object {} (Draft.member inner)).finish)
    (fun inner => do
      match ← position true string with
      | none => refuse (.wrongLength 0 "struct Command with 5 elements")
      | some name => do
        let help ← position false (orNull string)
        let params ← position false (list inner Param.read)
        let args ← position false (orNull (Param.read inner))
        let action ← position false (orNull (Action.read inner))
        pure ⟨name, help.getD none, params.getD [], args.getD none, action.getD none⟩)

end Command

namespace Grammar

structure Draft where
  types : Option (List ValueType) := none
  commands : Option (List Command) := none

def Draft.member (levels : Nat) (d : Draft) (name : String) : Read Draft := do
  match name with
  | "ptypes" => pure { d with types := ← once d.types name (list levels ValueType.read) }
  | "commands" => pure { d with commands := ← once d.commands name (list levels Command.read) }
  | _ => skipMember; pure d

def Draft.finish (d : Draft) : Grammar := ⟨d.types.getD [], d.commands.getD []⟩

def read (levels : Nat) : Read Grammar :=
  record levels "struct Grammar"
    (fun inner => do pure (← object {} (Draft.member inner)).finish)
    (fun inner => do
      let types ← position true (list inner ValueType.read)
      let commands ← position false (list inner Command.read)
      pure ⟨types.getD [], commands.getD []⟩)

end Grammar

/-! ## Texts -/

def Param.ofText (text : String) : Except Fault Param := whole Param.read text

def ValueType.ofText (text : String) : Except Fault ValueType := whole ValueType.read text

end LineMatch
