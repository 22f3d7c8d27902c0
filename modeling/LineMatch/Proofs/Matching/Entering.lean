/-
  LineMatch.Proofs.Matching.Entering — whether a command can be entered.

  Where every parameter is mandatory and takes one word a match has no choice: it goes
  through the tree depth first and gives each parameter the next word. What it has still
  to fill is `pending`, read off the lists being scanned; a step takes the first of it off
  or leaves it as it is. One store serves the whole tree, so the match comes to its end
  only where no name occurs twice in the tree, in whichever lists.

  Proved:
  - `step_pending`, `stop_pending`: what one step does to what is pending.
  - `Fills.finish`: words that are accepted fill what is pending, if the names are new and
    distinct.
  - `names_nodup_of_ok`: and only then, whatever the words.
  - `enters`: both for the parameters of a command.
  - `pair_not_entered`: a command of a checked grammar that no words enter.
-/

import LineMatch.Line.Basic
import LineMatch.Grammar.Check
import LineMatch.Proofs.Matching.Accounting

namespace LineMatch

/-! ## Trees of parameters -/

mutual

/-- The parameter, and after it those nested in it. -/
def Param.preorder : Param → List Param
  | p@⟨_, _, _, _, _, _, _, params⟩ => p :: preorder params

/-- The parameters of a list, each with those nested in it, depth first. -/
def preorder : List Param → List Param
  | [] => []
  | p :: ps => p.preorder ++ preorder ps

end

theorem Param.preorder_eq (p : Param) : p.preorder = p :: LineMatch.preorder p.params := by
  obtain ⟨_, _, _, _, _, _, _, _⟩ := p
  rw [preorder]

/-- What a parameter makes of a text if its type needs no action. -/
def Grammar.value? (g : Grammar) (p : Param) (text : String) : Option String :=
  (g.type? p.type).bind fun t => t.accept? text

/-- Mandatory, without a test, and filled by one word, which a type of the grammar judges
    without an action. -/
structure Param.Plain (g : Grammar) (p : Param) : Prop where
  ordinary : p.mode = .ordinary
  mandatory : p.isOptional = false
  untested : p.test = none
  static : ∃ t, g.type? p.type = some t ∧ t.action? = none

/-- A word for a parameter, with the value it stands for. -/
structure Filling where
  node : Param
  word : Token
  value : String

def Filling.entry (x : Filling) : Entry := ⟨x.node, x.value⟩

namespace Param.Plain

variable {g : Grammar} {p : Param}

theorem choices (h : p.Plain g) : p.choices = [p] := by
  rw [Param.choices, h.ordinary]

theorem record (h : p.Plain g) (store : Store) (value : String) : store.record p p value = store.insert p value := by
  simp [Store.record, Param.isSwitch, h.ordinary]

theorem accept? (h : p.Plain g) {s : Scope} (hs : s.session.grammar = g) (run : Executor) (text : String)
    (calls : List Scope) : p.accept? run s text calls = (g.value? p text, calls) := by
  obtain ⟨t, ht, ha⟩ := h.static
  have hadmits : p.admits text = true := by
    simp [Param.admits, Param.keyword?, h.ordinary]
  simp [Param.accept?, hadmits, hs, ht, ValueType.judge, ha, Grammar.value?]

end Param.Plain

namespace Matching

/-! ## What is pending -/

/-- The parameters that the lists being scanned have still to come to. -/
def pending (fs : List Frame) : List Param := fs.flatMap fun f => preorder (f.params.drop f.index)

variable {f g : Frame} {fs : List Frame} {p node : Param}

theorem pending_leave (h : f.params[f.index]? = none) : pending (f :: fs) = pending fs := by
  have hdrop : f.params.drop f.index = [] := List.drop_eq_nil_of_le (List.getElem?_eq_none_iff.1 h)
  rw [pending, List.flatMap_cons, hdrop]
  rfl

/-- A parameter is pending before those nested in it, and these before the list goes on. -/
theorem pending_visit (h : f.params[f.index]? = some p) (hparams : g.params = f.params)
    (hindex : g.index = f.index + 1) : pending (f :: fs) = p :: pending (⟨p.params, 0, 0⟩ :: g :: fs) := by
  obtain ⟨hlt, hp⟩ := List.getElem?_eq_some_iff.1 h
  have hdrop : f.params.drop f.index = p :: f.params.drop (f.index + 1) := by
    rw [List.drop_eq_getElem_cons hlt, hp]
  rw [pending, pending, List.flatMap_cons, List.flatMap_cons, List.flatMap_cons, hdrop, hparams, hindex]
  rw [preorder, Param.preorder_eq, List.drop_zero, List.cons_append, List.cons_append, List.append_assoc]

namespace Setting

variable {m : Setting} {s t : State} {ps : List Param} {calls : List Scope} {value : String} {token : Token}
  {x : Filling} {xs : List Filling}

/-! ## One step -/

/-- Whatever is pending is plain. -/
def Plain (m : Setting) (s : State) : Prop := ∀ p ∈ pending s.frames, p.Plain m.scope.session.grammar

theorem Visits.pending_eq (h : m.Visits s f fs p) :
    pending s.frames = p :: pending (⟨p.params, 0, 0⟩ :: f.pass :: fs) := by
  rw [h.frames]
  exact pending_visit h.stands rfl rfl

theorem Plain.head (hs : m.Plain s) (h : pending s.frames = p :: ps) : p.Plain m.scope.session.grammar := by
  refine hs p ?_
  rw [h]
  exact List.mem_cons_self

/-- A step leaves what is pending, the words behind and the store as they are, or it takes
    the word for the first parameter pending. -/
theorem step_pending (htarget : m.target = none) (hs : m.Plain s) (h : m.step s = .go t) :
    (pending t.frames = pending s.frames ∧ t.cursor = s.cursor ∧ t.store = s.store) ∨
      ∃ p value calls, pending s.frames = p :: pending t.frames ∧ m.taker s p = (some (p, value), calls) ∧
        t.cursor = s.cursor + 1 ∧ t.store = s.store.insert p value := by
  cases move_go h with
  | leave hf hp =>
    refine .inl ⟨?_, rfl, rfl⟩
    rw [hf]
    exact (pending_leave hp).symm
  | @skip f fs p hf hp ha =>
    have hpending : pending s.frames = p :: pending (⟨p.params, 0, 0⟩ :: f.pass :: fs) := by
      rw [hf]
      exact pending_visit hp rfl rfl
    rw [applies_of_untested s (hs.head hpending).untested] at ha
    cases ha
  | @take f fs p node value calls hv ht _ =>
    have hplain := hs.head hv.pending_eq
    have hnode := (taker_some ht).1
    rw [hplain.choices] at hnode
    obtain rfl := List.mem_singleton.1 hnode
    have hindex : (f.take node).index = f.index + 1 := by
      simp [Frame.take, hplain.mandatory]
    refine .inr ⟨node, value, calls, ?_, ht, rfl, hplain.record s.store value⟩
    rw [hv.frames]
    exact pending_visit hv.stands (Frame.take_params f node) hindex
  | keep _ _ hk =>
    rw [keepsWord_of_no_target htarget] at hk
    cases hk
  | pass hv _ ho =>
    rw [(hs.head hv.pending_eq).mandatory] at ho
    cases ho

/-- A match stops where nothing is pending, or where the first parameter pending does not
    take the word. -/
theorem stop_pending {status : Status} (h : m.step s = .stop status t) :
    (pending s.frames = [] ∧ m.close s = (status, t)) ∨
      ∃ p ps calls, pending s.frames = p :: ps ∧ m.taker s p = (none, calls) ∧ status ≠ .ok := by
  cases move_stop h with
  | close hf =>
    refine .inl ⟨?_, rfl⟩
    rw [hf]
    rfl
  | @refuse f fs p calls hv ht _ =>
    refine .inr ⟨p, _, calls, hv.pending_eq, ht, ?_⟩
    split <;> exact nofun

theorem Plain.step (htarget : m.target = none) (hs : m.Plain s) (h : m.step s = .go t) : m.Plain t := by
  intro p hp
  rcases step_pending htarget hs h with ⟨hsame, -, -⟩ | ⟨q, value, calls, hpending, -⟩
  · exact hs p (hsame ▸ hp)
  · refine hs p ?_
    rw [hpending]
    exact List.mem_cons_of_mem _ hp

/-! ## Words that fill what is pending -/

theorem taker_of_value (hp : p.Plain m.scope.session.grammar) (hword : m.words[s.cursor]? = some token)
    (hnew : s.store.contains p.name = false) (hvalue : m.scope.session.grammar.value? p token.text = some value) :
    m.taker s p = (some (p, value), s.calls) := by
  simp [taker, word?_of_getElem? hword, hnew, hp.choices, firstToAccept, applies_of_untested s hp.untested, hp.accept? rfl, hvalue]

/-- The words still to come are one for each parameter pending, which accepts it; and the
    names of these parameters are new and distinct. -/
structure Fills (m : Setting) (s : State) (xs : List Filling) : Prop where
  nodes : xs.map Filling.node = pending s.frames
  words : m.words.drop s.cursor = xs.map Filling.word
  values : ∀ x ∈ xs, m.scope.session.grammar.value? x.node x.word.text = some x.value
  names : (s.store.names ++ (pending s.frames).map Param.name).Nodup

/-- The first parameter pending has a word, and takes it as its value. -/
theorem Fills.next (hs : m.Plain s) (h : m.Fills s xs) (hpending : pending s.frames = p :: ps) :
    ∃ x ys, xs = x :: ys ∧ x.node = p ∧ m.taker s p = (some (p, x.value), s.calls) := by
  obtain ⟨hnodes, hwords, hvalues, hnames⟩ := h
  rw [hpending] at hnodes hnames
  cases xs with
  | nil => cases hnodes
  | cons x ys =>
    obtain rfl : x.node = p := (List.cons.inj hnodes).1
    have hword : m.words[s.cursor]? = some x.word := getElem?_of_drop hwords
    refine ⟨x, ys, rfl, rfl, ?_⟩
    exact taker_of_value (hs.head hpending) hword (Store.new_of_nodup hnames) (hvalues x List.mem_cons_self)

/-- After a word is taken the others fill what is pending then. -/
theorem Fills.tail (h : m.Fills s (x :: xs)) (hpending : pending s.frames = x.node :: pending t.frames)
    (hcursor : t.cursor = s.cursor + 1) (hstore : t.store = s.store.insert x.node x.value) : m.Fills t xs where
  nodes := by
    have hnodes := h.nodes
    rw [hpending] at hnodes
    exact (List.cons.inj hnodes).2
  words := by
    rw [hcursor, ← List.drop_drop, h.words]
    rfl
  values := fun y hy => h.values y (List.mem_cons_of_mem x hy)
  names := by
    have hnames := h.names
    rw [hpending, List.map_cons] at hnames
    rw [hstore, Store.names_insert_append (Store.new_of_nodup hnames)]
    exact hnames

/-- Words that fill what is pending are taken one after the other, each as its value, to
    the end of the match. -/
theorem Fills.finish (htarget : m.target = none) (hs : m.Plain s) (h : m.Fills s xs) :
    (m.finish s).1 = .ok ∧ (m.finish s).2.store.entries = s.store.entries ++ xs.map Filling.entry ∧
      m.words.length ≤ (m.finish s).2.cursor := by
  induction s using run_induction (m := m) generalizing xs with
  | stop s status t hstop =>
    rw [finish_of_stop hstop]
    rcases stop_pending hstop with ⟨hnil, hclose⟩ | ⟨p, ps, calls, hpending, ht, -⟩
    · have hxs : xs = [] := List.map_eq_nil_iff.1 (h.nodes.trans hnil)
      subst hxs
      have hle : m.words.length ≤ s.cursor := List.drop_eq_nil_iff.1 h.words
      obtain ⟨hok, hcursor, hstore⟩ := close_of_no_words hle
      rw [hclose] at hok hcursor hstore
      have hsame : t.store = s.store := hstore
      refine ⟨hok, ?_, Nat.le_trans hle (Nat.le_of_eq hcursor.symm)⟩
      rw [List.map_nil, List.append_nil, ← hsame]
    · obtain ⟨x, ys, -, -, htaker⟩ := h.next hs hpending
      rw [ht] at htaker
      cases htaker
  | go s t hgo ih =>
    rw [finish_of_go hgo]
    have ht := hs.step htarget hgo
    rcases step_pending htarget hs hgo with ⟨hsame, hcursor, hstore⟩ | ⟨p, value, calls, hpending, hp, hcursor, hstore⟩
    · rw [← hstore]
      refine ih ht ⟨h.nodes.trans hsame.symm, hcursor ▸ h.words, h.values, ?_⟩
      rw [hstore, hsame]
      exact h.names
    · obtain ⟨x, ys, rfl, rfl, htaker⟩ := h.next hs hpending
      rw [hp] at htaker
      cases htaker
      obtain ⟨hok, hentries, hle⟩ := ih ht (h.tail hpending hcursor hstore)
      refine ⟨hok, ?_, hle⟩
      rw [hentries, hstore, Store.entries_insert_of_new (taker_some hp).2, List.append_assoc]
      rfl

/-- A match ends well only where the names of what is pending are new and distinct. -/
theorem names_nodup_of_ok (htarget : m.target = none) (hs : m.Plain s) (hstore : s.store.names.Nodup)
    (hok : (m.finish s).1 = .ok) : (s.store.names ++ (pending s.frames).map Param.name).Nodup := by
  induction s using run_induction (m := m) with
  | stop s status t hstop =>
    rw [finish_of_stop hstop] at hok
    rcases stop_pending hstop with ⟨hnil, -⟩ | ⟨p, ps, calls, -, -, hne⟩
    · rw [hnil, List.map_nil, List.append_nil]
      exact hstore
    · exact absurd hok hne
  | go s t hgo ih =>
    rw [finish_of_go hgo] at hok
    have ht := hs.step htarget hgo
    rcases step_pending htarget hs hgo with ⟨hsame, -, hsamestore⟩ | ⟨p, value, calls, hpending, hp, -, hinsert⟩
    · rw [hsamestore, hsame] at ih
      exact ih ht hstore hok
    · rw [hinsert] at ih
      have hnames := ih ht (Store.nodup_names_insert hstore p value) hok
      rw [Store.names_insert_append (taker_some hp).2] at hnames
      rw [hpending]
      exact hnames

end Setting

end Matching

/-! ## The parameters of a command -/

open Matching
open Matching.Setting (start)

theorem pending_start (ps : List Param) (cursor : Nat) (store : Store) :
    pending (start ps cursor store).frames = preorder ps :=
  List.append_nil _

/-- A command all of whose parameters, however deep, are plain, and have names that occur
    once in the whole tree, is entered by any words that they accept, one for each in
    depth-first order: the match from the first of these words on ends well, behind the
    last, with an entry for each parameter, in that order. Where a name occurs twice in
    the tree no words at all enter the command. -/
theorem enters (s : Session) (run : Executor) (c : Command)
    (hplain : ∀ p ∈ preorder c.params, p.Plain s.grammar) :
    (∀ (before : List Token) (xs : List Filling), ((preorder c.params).map Param.name).Nodup →
        xs.map Filling.node = preorder c.params →
        (∀ x ∈ xs, ∃ t, s.grammar.type? x.node.type = some t ∧ t.accept? x.word.text = some x.value) →
          let m := s.setting run c (before ++ xs.map Filling.word) none
          let result := m.finish (start c.params before.length .empty)
          result.1 = .ok ∧ result.2.store.entries = xs.map Filling.entry ∧ result.2.cursor = m.words.length) ∧
      (¬ ((preorder c.params).map Param.name).Nodup → ∀ (ts : List Token) (cursor : Nat),
        ((s.setting run c ts none).finish (start c.params cursor .empty)).1 ≠ .ok) := by
  constructor
  · intro before xs hnames hnodes hvalues m
    let first := start c.params before.length .empty
    have hs : m.Plain first := by
      intro p hp
      rw [pending_start] at hp
      exact hplain p hp
    have hfills : m.Fills first xs := by
      refine ⟨hnodes.trans (pending_start _ _ _).symm, List.drop_left, ?_, ?_⟩
      · intro x hx
        obtain ⟨t, ht, haccept⟩ := hvalues x hx
        exact Option.bind_eq_some_iff.2 ⟨t, ht, haccept⟩
      · rw [pending_start]
        exact hnames
    obtain ⟨hok, hentries, hle⟩ := hfills.finish rfl hs
    have hcursor : (m.finish first).2.cursor ≤ m.words.length := by
      refine Setting.finish_cursor_le_length ?_
      show before.length ≤ (before ++ xs.map Filling.word).length
      rw [List.length_append]
      exact Nat.le_add_right _ _
    exact ⟨hok, hentries, Nat.le_antisymm hcursor hle⟩
  · intro htwice ts cursor hok
    have hs : (s.setting run c ts none).Plain (start c.params cursor .empty) := by
      intro p hp
      rw [pending_start] at hp
      exact hplain p hp
    have hnames := Setting.names_nodup_of_ok rfl hs List.nodup_nil hok
    rw [pending_start] at hnames
    exact htwice hnames

/-! ## Two commands that take numbers -/

namespace Matching.Sample

/-- Takes a `width` and with it a `height`, then a `depth`. -/
def box : Command where
  name := "box"
  params := [
    { name := "width", type := "NUM", params := [{ name := "height", type := "NUM" }] },
    { name := "depth", type := "NUM" }]

/-- Takes an `n`, and with it another `n`. -/
def pair : Command where
  name := "pair"
  params := [{ name := "n", type := "NUM", params := [{ name := "n", type := "NUM" }] }]

def counting : Session where
  grammar := { types := [{ name := "NUM", method := .unsignedInteger none none }], commands := [box, pair] }

/-- Words that stand for themselves. -/
def fillings (ps : List Param) (texts : List String) : List Filling :=
  List.zipWith (fun p text => ⟨p, ⟨text, false, 0, text.utf8ByteSize⟩, text⟩) ps texts

theorem counting_plain : ∀ p ∈ preorder box.params ++ preorder pair.params, p.Plain counting.grammar := by
  intro p hp
  simp only [box, pair, preorder, Param.preorder, List.append_nil, List.cons_append, List.nil_append, List.mem_cons,
    List.not_mem_nil, or_false] at hp
  rcases hp with rfl | rfl | rfl | rfl | rfl <;> exact ⟨rfl, rfl, rfl, _, rfl, rfl⟩

theorem accepts_fillings {g : Grammar} {xs : List Filling}
    (h : (xs.all fun x => (g.type? x.node.type).any fun t => t.accept? x.word.text == some x.value) = true) :
    ∀ x ∈ xs, ∃ t, g.type? x.node.type = some t ∧ t.accept? x.word.text = some x.value := by
  intro x hx
  obtain ⟨t, ht, haccept⟩ := (Option.any_eq_true _ _).1 (List.all_eq_true.1 h x hx)
  exact ⟨t, ht, beq_iff_eq.1 haccept⟩

end Matching.Sample

open Matching.Sample

/-- The words `2 3 4` enter `box`, and no words enter `pair`. -/
theorem box_entered :
    let ts := unquoted ["box", "2", "3", "4"]
    let result := (counting.setting never box ts none).finish (start box.params 1 .empty)
    (result.1 = .ok ∧ result.2.store.entries.map Entry.value = ["2", "3", "4"] ∧ result.2.cursor = 4) ∧
      ∀ ts cursor, ((counting.setting never pair ts none).finish (start pair.params cursor .empty)).1 ≠ .ok := by
  have hbox : ∀ p ∈ preorder box.params, p.Plain counting.grammar :=
    fun p hp => counting_plain p (List.mem_append_left _ hp)
  have hpair : ∀ p ∈ preorder pair.params, p.Plain counting.grammar :=
    fun p hp => counting_plain p (List.mem_append_right _ hp)
  obtain ⟨hok, hentries, hcursor⟩ := (enters counting never box hbox).1 (unquoted ["box"])
    (fillings (preorder box.params) ["2", "3", "4"]) (by decide) rfl (accepts_fillings (by decide +kernel))
  exact ⟨⟨hok, congrArg (List.map Entry.value) hentries, hcursor⟩, (enters counting never pair hpair).2 (by decide)⟩

/-- In `pair` the names of each list are distinct, so the grammar passes the check, and
    `NUM` accepts `1` and `2`; but the second `n` takes no word. -/
theorem pair_not_entered : counting.grammar.check.isOk = true ∧ pair ∈ counting.grammar.commands ∧
    (∀ p ∈ preorder pair.params, p.Plain counting.grammar) ∧
    ∃ xs : List Filling, xs.map Filling.node = preorder pair.params ∧
      (∀ x ∈ xs, ∃ t, counting.grammar.type? x.node.type = some t ∧ t.accept? x.word.text = some x.value) ∧
      ((counting.setting never pair (unquoted ["pair"] ++ xs.map Filling.word) none).finish
        (start pair.params 1 .empty)).1 = .illegalParam := by
  refine ⟨by decide +kernel, List.mem_cons_of_mem _ List.mem_cons_self, ?_, ?_⟩
  · intro p hp
    exact counting_plain p (List.mem_append_right _ hp)
  · exact ⟨fillings (preorder pair.params) ["1", "2"], rfl, accepts_fillings (by decide +kernel), by decide +kernel⟩

end LineMatch
