/-
  LineMatch.Matching.Step — words against a tree of parameters, one visit at a time.

  A list of parameters is scanned from its first. A parameter whose test does not hold
  is passed. Any other is tried on the word under the cursor, through its alternatives
  if it is a switch; one whose name is recorded already takes nothing. What takes the
  word is recorded, the cursor moves on, and the parameters nested in it are scanned
  before the list goes on. After an optional parameter that keeps no order the list is
  scanned again from its floor, the place after the last mandatory or ordered parameter
  that took a word. An optional parameter that takes nothing is passed; a mandatory one
  ends the match.

  `step` makes one visit. A state holds the lists being scanned, the innermost first.
  With a target the parameters that could stand at that place are offered as candidates
  when they are visited there.
-/

import LineMatch.Session.Condition
import LineMatch.Session.Validation

namespace LineMatch

/-- What a match comes to. -/
inductive Status where
  /-- Every mandatory parameter has its word. -/
  | ok
  /-- The words end before a mandatory parameter has its own. -/
  | incomplete
  /-- A mandatory parameter does not take the word that is there. -/
  | illegalParam
  /-- No command has the name, or words are left over. -/
  | illegalCommand
  deriving Repr, DecidableEq, Inhabited

/-- The parameters that may take a word for this one. -/
def Param.choices (p : Param) : List Param :=
  match p.mode with
  | .switch alternatives => alternatives
  | .ordinary | .subcommand _ => [p]

namespace Param

theorem choices_of_isSwitch {p : Param} (h : p.isSwitch = true) : p.choices = p.alternatives := by
  obtain ⟨_, _, _, mode, _, _, _, _⟩ := p
  cases mode with
  | switch as => rfl
  | ordinary => cases h
  | subcommand _ => cases h

theorem choices_of_not_isSwitch {p : Param} (h : p.isSwitch = false) : p.choices = [p] := by
  obtain ⟨_, _, _, mode, _, _, _, _⟩ := p
  cases mode with
  | switch as => cases h
  | ordinary => rfl
  | subcommand _ => rfl

/-- The choices of a parameter are the parameter or its alternatives. -/
theorem choices_sublist (p : Param) : p.choices.Sublist (p :: p.alternatives) := by
  rcases hp : p.isSwitch with _ | _
  · rw [choices_of_not_isSwitch hp]
    exact (List.nil_sublist _).cons_cons _
  · rw [choices_of_isSwitch hp]
    exact List.sublist_cons_self _ _

theorem choices_subset (p : Param) : ∀ node ∈ p.choices, node ∈ p :: p.alternatives :=
  fun _ h => p.choices_sublist.mem h

end Param

/-- Records a word that `node` took for `p`: for a switch also which alternative it was. -/
def Store.record (s : Store) (p node : Param) (value : String) : Store :=
  (if p.isSwitch then s.insert p node.name else s).insert node value

namespace Matching

/-- A list being scanned. -/
structure Frame where
  params : List Param
  index : Nat := 0
  /-- Where the scan starts again after an optional parameter without order. -/
  floor : Nat := 0
  deriving Repr, Inhabited

namespace Frame

/-- Past the parameter under the index. -/
def pass (f : Frame) : Frame := { f with index := f.index + 1 }

/-- After the parameter under the index, `p`, took a word. -/
def take (f : Frame) (p : Param) : Frame :=
  if p.isOptional && !p.isOrdered then { f with index := f.floor }
  else { f with index := f.index + 1, floor := f.index + 1 }

end Frame

structure State where
  frames : List Frame
  /-- The number of words behind. -/
  cursor : Nat
  store : Store := .empty
  candidates : Store := .empty
  /-- The calls of the executor, the last first. -/
  calls : List Scope := []
  deriving Repr, Inhabited

/-- What stays the same during a match. -/
structure Setting where
  run : Executor
  scope : Scope
  command : Command
  words : List Token
  /-- The place of the word that is being completed. -/
  target : Option Nat := none
  /-- Whether words left over go to the parameter the command has for them. -/
  takesRest : Bool := true

/-- After a visit. -/
inductive Next where
  | go (s : State)
  | stop (status : Status) (s : State)
  deriving Inhabited

namespace Setting

/-- The word under the cursor. -/
def word? (m : Setting) (s : State) : Option String := m.words[s.cursor]?.map Token.text

def applies (m : Setting) (s : State) (p : Param) : Bool := Condition.applies m.scope s.store p

/-! ## Candidates -/

def atTarget (m : Setting) (s : State) : Bool := m.target == some s.cursor

/-- The choices of `p` that could take a word that begins like the one under the cursor. -/
def offers (m : Setting) (s : State) (p : Param) : List Param :=
  p.choices.filter fun q => m.applies s q && (m.word? s).all q.admits

/-- The candidates after a visit of `p`. -/
def offer (m : Setting) (s : State) (p : Param) : Store :=
  if m.atTarget s && !s.store.contains p.name then
    (m.offers s p).foldl (fun found q => found.insert q ((m.word? s).getD "")) s.candidates
  else s.candidates

/-! ## Taking a word -/

/-- The first of some parameters that applies and accepts the word, and the value. -/
def firstToAccept (m : Setting) (s : State) (word : String) :
    List Param → List Scope → Option (Param × String) × List Scope
  | [], calls => (none, calls)
  | p :: ps, calls =>
    if m.applies s p then
      match p.accept? m.run m.scope word calls with
      | (some value, calls) => (some (p, value), calls)
      | (none, calls) => firstToAccept m s word ps calls
    else firstToAccept m s word ps calls

/-- Which choice of `p` takes the word under the cursor, and as what. -/
def taker (m : Setting) (s : State) (p : Param) : Option (Param × String) × List Scope :=
  match m.word? s with
  | some word => if s.store.contains p.name then (none, s.calls) else m.firstToAccept s word p.choices s.calls
  | none => (none, s.calls)

/-- Whether a word that an optional parameter took stays under the cursor: the last word,
    when it is the one being completed. -/
def keepsWord (m : Setting) (s : State) (p : Param) : Bool :=
  p.isOptional && m.atTarget s && s.cursor + 1 == m.words.length

/-! ## Visits -/

/-- Visits `p`, which stands under the index of `f`. -/
def visit (m : Setting) (s : State) (f : Frame) (fs : List Frame) (p : Param) : Next :=
  let candidates := m.offer s p
  match m.taker s p with
  | (some (node, value), calls) =>
    let store := s.store.record p node value
    if m.keepsWord s p then .go ⟨f.take p :: fs, s.cursor, store, candidates, calls⟩
    else .go ⟨⟨node.params, 0, 0⟩ :: f.take p :: fs, s.cursor + 1, store, candidates, calls⟩
  | (none, calls) =>
    let after (frames : List Frame) : State := ⟨frames, s.cursor, s.store, candidates, calls⟩
    if p.isOptional then .go (after (f.pass :: fs))
    else .stop (if (m.word? s).isSome then .illegalParam else .incomplete) (after (f :: fs))

/-- The candidates when all lists are through: words left over stand for themselves where
    nothing else is offered. -/
def offerRest (m : Setting) (s : State) (rest : Param) : Store :=
  if m.target.isSome && s.candidates.isEmpty && s.cursor ≤ m.words.length then s.candidates.insert rest ""
  else s.candidates

/-- Gives the words left over to the parameter for them. -/
def close (m : Setting) (s : State) : Status × State :=
  match m.takesRest, m.command.args with
  | false, _ => (.ok, s)
  | true, none => (if s.cursor < m.words.length then .illegalCommand else .ok, s)
  | true, some rest =>
    let s := { s with candidates := m.offerRest s rest }
    if s.cursor < m.words.length then
      (.ok, { s with cursor := m.words.length, store := s.store.insert rest (fold (m.words.drop s.cursor)) })
    else (.ok, s)

/-- One visit, the end of one list, or the end of all. -/
def step (m : Setting) (s : State) : Next :=
  match s.frames with
  | [] => .stop (m.close s).1 (m.close s).2
  | f :: fs =>
    match f.params[f.index]? with
    | none => .go { s with frames := fs }
    | some p => if m.applies s p then m.visit s f fs p else .go { s with frames := f.pass :: fs }

end Setting

end Matching

end LineMatch
