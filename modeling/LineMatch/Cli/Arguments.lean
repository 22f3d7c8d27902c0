/-
  LineMatch.Cli.Arguments — what the arguments of the program ask for.

  The arguments name one of three tasks and its options. An option's value stands after
  it or behind an equals sign. A line may begin with a hyphen: until there is one, an
  argument that looks like unknown options is taken as a value, and after `--` nothing
  is an option any more. A value is judged when the next option begins.
-/

namespace LineMatch.Cli

inductive Format where
  | pretty | json
  deriving DecidableEq, Repr, Inhabited

/-- A grammar to load and how to run its scripts. -/
structure SessionOptions where
  grammar : String
  vars : List (String × String) := []
  interpreter : Option String := none
  deriving Repr, DecidableEq, Inhabited

inductive Task where
  | parse (options : SessionOptions) (line : String)
  | complete (options : SessionOptions) (line : String)
  | check (grammar : String)
  deriving Repr, DecidableEq

inductive Verb where
  | parse | complete | check
  deriving DecidableEq, Repr

def Verb.names : List (String × Verb) := [("parse", .parse), ("complete", .complete), ("check", .check)]

/-- What help is about. -/
inductive Topic where
  | program | verb (v : Verb) | help
  deriving DecidableEq, Repr

inductive Request where
  | run (task : Task) (format : Option Format)
  | help (about : Topic)
  | version
  /-- The arguments ask for nothing that there is. -/
  | misuse
  deriving Repr, DecidableEq

/-! ## Options -/

inductive Flag where
  | output | grammar | var | interpreter
  deriving DecidableEq, Repr

def Flag.name : Flag → String
  | output => "output"
  | grammar => "grammar"
  | var => "var"
  | interpreter => "interpreter"

/-- The options before the name of a task, or after it. -/
def flags : Option Verb → List Flag
  | none => [.output]
  | some .check => [.output, .grammar]
  | some _ => [.output, .grammar, .var, .interpreter]

/-- The letters of options. -/
def letters : Option Verb → List Char
  | none => ['h', 'V']
  | some _ => ['h', 'g']

/-- The options and values read so far. -/
structure Draft where
  verb : Option Verb
  output : Option Format := none
  grammar : Option String := none
  vars : List (String × String) := []
  interpreter : Option String := none
  line : Option String := none
  /-- An option with its value, if it has come already. -/
  pending : Option (Flag × Option String) := none
  /-- Whether `--` has come. -/
  isLiteral : Bool := false
  deriving Repr

abbrev Outcome (α : Type) := Except Request α

/-- The name and the value that an equals sign separates. -/
def splitAtEquals : List Char → Option (List Char × List Char)
  | [] => none
  | c :: cs =>
    if c = '=' then some ([], cs)
    else (splitAtEquals cs).map fun (name, value) => (c :: name, value)

/-- A variable with its value. -/
def binding? (text : String) : Option (String × String) :=
  match splitAtEquals text.toList with
  | some (c :: name, value) => some (String.ofList (c :: name), String.ofList value)
  | _ => none

def Format.ofName? : String → Option Format
  | "pretty" => some .pretty
  | "json" => some .json
  | _ => none

namespace Draft

/-- Whether a line may still come. -/
def wantsLine (d : Draft) : Bool := (d.verb == some .parse || d.verb == some .complete) && d.line.isNone

/-- Gives an option its value, which it takes once; variables may come again. -/
def give (d : Draft) (flag : Flag) (value : String) : Outcome Draft :=
  match flag with
  | .output =>
    match d.output, Format.ofName? value with
    | none, some f => .ok { d with output := some f }
    | _, _ => .error .misuse
  | .grammar =>
    if d.grammar.isNone && !value.isEmpty then .ok { d with grammar := some value } else .error .misuse
  | .var =>
    match binding? value with
    | some v => .ok { d with vars := d.vars ++ [v] }
    | none => .error .misuse
  | .interpreter =>
    if d.interpreter.isNone then .ok { d with interpreter := some value } else .error .misuse

/-- Judges the value of the option before. -/
def resolve (d : Draft) : Outcome Draft :=
  match d.pending with
  | none => .ok d
  | some (flag, some value) => { d with pending := none }.give flag value
  | some (_, none) => .error .misuse

/-- Whether an option waits for its value. -/
def isWaiting (d : Draft) : Bool :=
  match d.pending with
  | some (_, none) => true
  | _ => false

/-- An argument that belongs to no option. -/
def positional (d : Draft) (arg : String) : Outcome Draft := do
  let d ← d.resolve
  if d.wantsLine then .ok { d with line := some arg } else .error .misuse

/-- An argument that is no option. -/
def value (d : Draft) (arg : String) : Outcome Draft :=
  match d.pending with
  | some (flag, none) => .ok { d with pending := some (flag, some arg) }
  | _ => d.positional arg

/-- An option, with its value if that is attached. -/
def option (d : Draft) (flag : Flag) (attached : Option String) : Outcome Draft := do
  let d ← d.resolve
  match attached with
  | some v => d.give flag v
  | none => .ok { d with pending := some (flag, none) }

/-- An option that ends the reading. -/
def ask {α : Type} (d : Draft) (request : Request) : Outcome α := do
  let _ ← d.resolve
  .error request

def topic (d : Draft) : Topic :=
  match d.verb with
  | some v => .verb v
  | none => .program

/-- An option by its name. -/
def longOption (d : Draft) (arg : String) (name : String) (attached : Option String) : Outcome Draft :=
  match (flags d.verb).find? (·.name == name) with
  | some flag => d.option flag attached
  | none =>
    if name = "help" then if attached.isNone then d.ask (.help d.topic) else .error .misuse
    else if name = "version" ∧ d.verb.isNone then if attached.isNone then d.ask .version else .error .misuse
    else if d.wantsLine then d.value arg
    else .error .misuse

/-- Options by their letters. -/
def shortOptions (d : Draft) : List Char → Outcome Draft
  | 'h' :: _ => d.ask (.help d.topic)
  | 'V' :: _ => if d.verb.isNone then d.ask .version else .error .misuse
  | 'g' :: rest =>
    if d.verb.isNone then .error .misuse
    else
      let attached := match rest with
        | [] => none
        | '=' :: cs => some (String.ofList cs)
        | cs => some (String.ofList cs)
      d.option .grammar attached
  | _ => .error .misuse

/-- One more argument. -/
def arg (d : Draft) (arg : String) : Outcome Draft :=
  if d.isLiteral then d.positional arg
  else match arg.toList with
    | ['-', '-'] => .ok { d with isLiteral := true }
    | '-' :: '-' :: cs =>
      match splitAtEquals cs with
      | some (name, attached) => d.longOption arg (String.ofList name) (some (String.ofList attached))
      | none => d.longOption arg (String.ofList cs) none
    | '-' :: c :: cs =>
      if d.wantsLine && (c :: cs).any (fun l => !(letters d.verb).contains l) then d.value arg
      else d.shortOptions (c :: cs)
    | _ => d.value arg

/-- The task of all options together. -/
def task? (d : Draft) : Option Task :=
  match d.verb, d.grammar, d.line with
  | some .parse, some g, some line => some (.parse ⟨g, d.vars, d.interpreter⟩ line)
  | some .complete, some g, some line => some (.complete ⟨g, d.vars, d.interpreter⟩ line)
  | some .check, some g, _ => some (.check g)
  | _, _, _ => none

end Draft

/-! ## All arguments -/

/-- The arguments after the name of a task; `outer` comes from before it. -/
def readTask (outer : Draft) (v : Verb) (args : List String) : Outcome Request := do
  let d ← args.foldlM Draft.arg { verb := some v : Draft }
  let d ← d.resolve
  match d.task? with
  | none => .error .misuse
  | some task => do
    let outer ← outer.resolve
    .ok (.run task (d.output.or outer.output))

/-- The arguments after `help`. -/
def readHelp : List String → Request
  | [] => .help .program
  | [name] =>
    match Verb.names.lookup name with
    | some v => .help (.verb v)
    | none => if name = "help" then .help .help else .misuse
  | _ => .misuse

/-- The arguments up to the name of a task. -/
def readFrom (d : Draft) : List String → Outcome Request
  | [] => .error .misuse
  | a :: rest =>
    if d.isLiteral || d.isWaiting then do readFrom (← d.arg a) rest
    else match Verb.names.lookup a with
      | some v => readTask d v rest
      | none => if a = "help" then .ok (readHelp rest) else do readFrom (← d.arg a) rest

/-- What the arguments ask for. -/
def Request.ofArguments (args : List String) : Request :=
  match readFrom { verb := none } args with
  | .ok r | .error r => r

end LineMatch.Cli
