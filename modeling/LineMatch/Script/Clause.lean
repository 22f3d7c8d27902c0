/-
  LineMatch.Script.Clause — the commands of a script.

  Commands are lists of words, joined by `;`, line feeds, `&&`, `||`, `|` and `!`,
  grouped by brackets, and chosen by `if` and `case`. A script is read line by line
  (`Script.lines`), so that the lines before one that cannot be read are still run.
-/

import LineMatch.Script.Symbol

namespace LineMatch.Script

inductive Clause where
  /-- Does nothing, with success. -/
  | nothing
  | words (ws : List Word)
  | seq (a b : Clause)
  | both (a b : Clause)
  | either (a b : Clause)
  | negation (a : Clause)
  | pipe (a b : Clause)
  /-- Without what it writes. -/
  | muted (a : Clause)
  /-- On its own: what it changes and its end are not seen outside. -/
  | apart (a : Clause)
  | branch (test yes no : Clause)
  /-- `body` if the subject matches one of the patterns, else the clauses for other patterns. -/
  | choice (subject : Word) (patterns : List Word) (body other : Clause)
  deriving Repr, Inhabited

abbrev Reading (α : Type) := StateT (List Symbol) Option α

namespace Reading

def peek : Reading (Option Symbol) := do return (← get).head?

def drop : Reading Unit := modify List.tail

def expect (s : Symbol) : Reading Unit := do
  if (← peek) = some s then drop else failure

/-- Whether the next symbol is this reserved word. -/
def isNext (reserved : String) : Reading Bool := do
  match ← peek with
  | some (.word w) => pure (plainText? w == some reserved)
  | _ => pure false

def expectWord (reserved : String) : Reading Unit := do
  if ← isNext reserved then drop else failure

def word : Reading Word := do
  match ← peek with
  | some (.word w) => drop; pure w
  | _ => failure

def newlines : Reading Unit := modify (List.dropWhile (· = .newline))

/-- The reserved words that end a list of commands. -/
def enders : List String := ["then", "elif", "else", "fi", "esac", "\x7d"]

/-- Whether a command begins here. -/
def startsCommand : Reading Bool := do
  match ← peek with
  | some (.word w) => pure !((plainText? w).any enders.contains)
  | some .openParen | some (.redirect _ _) => pure true
  | _ => pure false

/-- The words of a simple command or the redirections after another one, and whether the
    output is redirected. -/
def operands (takesWords : Bool) : Nat → Reading (List Word × Bool)
  | 0 => failure
  | n + 1 => do
    match ← peek with
    | some (.redirect stream isInput) => do
      drop
      let _ ← word
      let (ws, isMuted) ← operands takesWords n
      pure (ws, isMuted || (!isInput && stream.all (· == 1)))
    | some (.word w) =>
      if takesWords then do
        drop
        let (ws, isMuted) ← operands takesWords n
        pure (w :: ws, isMuted)
      else pure ([], false)
    | _ => pure ([], false)

def muteIf (isMuted : Bool) (a : Clause) : Clause := if isMuted then .muted a else a

/-- The patterns of one choice, up to the bracket after them. -/
def patterns : Nat → Reading (List Word)
  | 0 => failure
  | n + 1 => do
    let w ← word
    match ← peek with
    | some .bar => drop; return w :: (← patterns n)
    | some .closeParen => drop; pure [w]
    | _ => failure

mutual

/-- Commands up to the end of a list. -/
def list : Nat → Reading Clause
  | 0 => failure
  | n + 1 => do
    newlines
    if ← startsCommand then
      let a ← junction n
      match ← peek with
      | some .semicolon | some .newline => do
        drop
        newlines
        if ← startsCommand then return .seq a (← list n) else pure a
      | _ => pure a
    else pure .nothing

/-- Pipelines joined by `&&` and `||`, which group to the left. -/
def junction : Nat → Reading Clause
  | 0 => failure
  | n + 1 => do
    let a ← pipeline n
    junctionAfter a n

def junctionAfter (a : Clause) : Nat → Reading Clause
  | 0 => failure
  | n + 1 => do
    match ← peek with
    | some .doubleAmpersand => drop; newlines; let b ← pipeline n; junctionAfter (.both a b) n
    | some .doubleBar => drop; newlines; let b ← pipeline n; junctionAfter (.either a b) n
    | _ => pure a

def pipeline : Nat → Reading Clause
  | 0 => failure
  | n + 1 => do
    if ← isNext "!" then
      drop
      return .negation (← pipeline n)
    let a ← single n
    match ← peek with
    | some .bar => drop; newlines; return .pipe a (← pipeline n)
    | _ => pure a

/-- One command without operators around it. -/
def single : Nat → Reading Clause
  | 0 => failure
  | n + 1 => do
    if (← peek) = some .openParen then
      drop
      let a ← list n
      expect .closeParen
      grouped (.apart a) n
    else if ← isNext "\x7b" then
      drop
      let a ← list n
      expectWord "\x7d"
      grouped a n
    else if ← isNext "if" then
      drop
      grouped (← conditional n) n
    else if ← isNext "case" then
      drop
      let subject ← word
      newlines
      expectWord "in"
      grouped (← choices subject n) n
    else if ← startsCommand then
      let (ws, isMuted) ← operands true n
      pure (muteIf isMuted (if ws.isEmpty then .nothing else .words ws))
    else failure

/-- The redirections after a group. -/
def grouped (a : Clause) : Nat → Reading Clause
  | 0 => failure
  | n + 1 => do
    let (_, isMuted) ← operands false n
    pure (muteIf isMuted a)

/-- A choice between two lists, after its `if` or `elif`. -/
def conditional : Nat → Reading Clause
  | 0 => failure
  | n + 1 => do
    let test ← list n
    expectWord "then"
    let yes ← list n
    if ← isNext "elif" then
      drop
      return .branch test yes (← conditional n)
    else if ← isNext "else" then
      drop
      let no ← list n
      expectWord "fi"
      pure (.branch test yes no)
    else
      expectWord "fi"
      pure (.branch test yes .nothing)

/-- The choices of a `case`, up to its end. -/
def choices (subject : Word) : Nat → Reading Clause
  | 0 => failure
  | n + 1 => do
    newlines
    if ← isNext "esac" then
      drop
      pure .nothing
    else
      if (← peek) = some .openParen then drop
      let ps ← patterns n
      let body ← list n
      if (← peek) = some .doubleSemicolon then
        drop
        return .choice subject ps body (← choices subject n)
      else
        expectWord "esac"
        pure (.choice subject ps body .nothing)

end

/-- The commands up to the end of a line. -/
def line : Nat → Reading Clause
  | 0 => failure
  | n + 1 => do
    let a ← junction n
    match ← peek with
    | none => pure a
    | some .newline => drop; pure a
    | some .semicolon => do
      drop
      match ← peek with
      | none => pure a
      | some .newline => drop; pure a
      | _ => return .seq a (← line n)
    | _ => failure

end Reading

/-- The lines of a script, up to the first that cannot be read, and whether there is one. -/
def lines : Nat → List Symbol → List Clause × Bool
  | 0, _ => ([], true)
  | n + 1, symbols =>
    match symbols.dropWhile (· = .newline) with
    | [] => ([], false)
    | rest =>
      match (Reading.line (8 * rest.length + 8)).run rest with
      | none => ([], true)
      | some (a, rest) =>
        let (as, isBroken) := lines n rest
        (a :: as, isBroken)

end LineMatch.Script
