/-
  LineMatch.Proofs.Matching.Typing — completion of a word that is being typed.

  Two runs are compared, of a command without tests and with names of their own for all
  its parameters: the match of `ts` with the candidates for the place after the last word,
  and the match of `ts` with one more word `w` and the candidates for its place. Up to
  that place they make the same steps. There the first sees no word and goes straight
  on to the first mandatory parameter. The second records each optional parameter that
  accepts `w`, keeps the word and may go back to the floor of the list; what it comes
  past again it has offered before, and what it records has a name that nothing before it
  has. So it falls behind and catches up (`Trails`), and in the end it has offered the same
  parameters, those apart whose keyword does not begin with `w`.

  Proved:
  - `linger`: what a visit of an optional parameter does at the word being typed.
  - `offer_boundary`, `offer_typing`: what the two runs offer at a parameter.
  - `Trails.onward`: a run that trails the other catches up, goes on with it or ends.
  - `Trails.finish`: so their candidates are those of one list.
  - `typed_word_filters`: all this from the start of a list.
-/

import LineMatch.Proofs.Matching.Boundary
import LineMatch.Proofs.Matching.Inserts
import LineMatch.Proofs.Matching.Nodes

namespace LineMatch

/-! ## Lists of candidates -/

/-- The entries whose parameter a word may stand for, with the word as their value. -/
def typed (word : String) (es : List Entry) : List Entry :=
  (es.filter fun e => e.param.admits word).map fun e => ⟨e.param, word⟩

/-- The entries but that of the parameter for words left over. -/
def Store.besides (s : Store) (args : Option Param) : List Entry :=
  s.entries.filter fun e => args.all fun rest => rest.name != e.name

theorem typed_append (word : String) (ds es : List Entry) :
    typed word (ds ++ es) = typed word ds ++ typed word es := by
  simp [typed]

theorem names_typed_sublist (word : String) (es : List Entry) :
    ((typed word es).map Entry.name).Sublist (es.map Entry.name) := by
  have h : (typed word es).map Entry.name = (es.filter fun e => e.param.admits word).map Entry.name := by
    rw [typed, List.map_map]
    rfl
  rw [h]
  exact List.filter_sublist.map _

theorem besides_typed {s t : Store} {word : String} (h : t.entries = typed word s.entries) (args : Option Param) :
    t.besides args = typed word (s.besides args) := by
  simp only [Store.besides, h, typed, List.filter_map, List.filter_filter]
  congr 2
  funext e
  exact Bool.and_comm _ _

namespace Matching

/-! ## Places in a list -/

/-- `g` is the list `f` after a visit that ended neither: one place on, or back to the floor. -/
structure Frame.GoesOn (f g : Frame) : Prop where
  params : g.params = f.params
  floor_le : f.floor ≤ g.floor
  floor_index : g.floor ≤ g.index
  index_le : g.index ≤ f.index + 1

theorem Frame.goesOn_pass {f : Frame} (h : f.floor ≤ f.index) : f.GoesOn f.pass :=
  ⟨rfl, Nat.le_refl _, Nat.le_succ_of_le h, Nat.le_refl _⟩

theorem Frame.goesOn_take {f : Frame} (h : f.floor ≤ f.index) (p : Param) : f.GoesOn (f.take p) := by
  refine ⟨f.take_params p, ?_, Nat.le_of_eq (f.take_settled p).symm, ?_⟩ <;>
    unfold Frame.take <;> split <;> dsimp only <;> omega

/-- The nodes that the lists being scanned have still before them. -/
def ahead (fs : List Frame) : List Param := fs.flatMap fun f => nodes (f.params.drop f.index)

section

variable {f : Frame} {fs : List Frame} {p : Param}

theorem ahead_cons (f : Frame) (fs : List Frame) : ahead (f :: fs) = nodes (f.params.drop f.index) ++ ahead fs :=
  List.flatMap_cons

/-- The parameter under the index, with its alternatives, is the first of them. -/
theorem ahead_pass (hp : f.params[f.index]? = some p) :
    ahead (f :: fs) = (p :: p.alternatives) ++ ahead (f.pass :: fs) := by
  obtain ⟨hlt, hget⟩ := List.getElem?_eq_some_iff.1 hp
  have hdrop : f.params.drop f.index = p :: f.params.drop (f.index + 1) := by
    rw [List.drop_eq_getElem_cons hlt, hget]
  rw [ahead_cons, ahead_cons, hdrop, ← List.append_assoc]
  rfl

theorem ahead_leave (hp : f.params[f.index]? = none) : ahead (f :: fs) = ahead fs := by
  rw [ahead_cons, List.drop_eq_nil_of_le (List.getElem?_eq_none_iff.1 hp)]
  rfl

theorem ahead_sublist (fs : List Frame) : (ahead fs).Sublist (onStack fs) := by
  induction fs with
  | nil => exact List.Sublist.refl _
  | cons f fs ih =>
    rw [ahead_cons, onStack, List.flatMap_cons]
    exact (nodes_drop_sublist _ _).append ih

end

namespace Setting

variable {m : Setting} {b s t u : State} {f g : Frame} {fs : List Frame} {p q : Param} {word : String}
  {ts : List Token} {w : Token} {rest : List Param} {recorded found : Store}

/-! ## At the word being typed -/

theorem atTarget_of_cursor {us : List Token} (h : s.cursor = ts.length) :
    (m.completing us ts.length).atTarget s = true := by
  simp [atTarget, completing, h]

theorem word?_typing (h : t.cursor = ts.length) : (m.completing (ts ++ [w]) ts.length).word? t = some w.text := by
  simp [word?, completing, h]

/-- Every optional parameter keeps the word. -/
theorem keepsWord_typing (h : t.cursor = ts.length) (p : Param) :
    (m.completing (ts ++ [w]) ts.length).keepsWord t p = p.isOptional := by
  simp [keepsWord, atTarget, completing, h]

/-- An optional parameter, taken or not, leaves the word where it is. The list goes on,
    and nothing is recorded but the parameter and what took the word for it. -/
theorem linger (hv : (m.completing (ts ++ [w]) ts.length).Visits t g fs p) (ho : p.isOptional = true)
    (hc : t.cursor = ts.length) (hg : g.floor ≤ g.index) :
    ∃ u g', (m.completing (ts ++ [w]) ts.length).step t = .go u ∧ u.frames = g' :: fs ∧ g.GoesOn g' ∧
      u.cursor = t.cursor ∧ u.candidates = (m.completing (ts ++ [w]) ts.length).offer t p ∧
      (∀ name, t.store.contains name = true → u.store.contains name = true) ∧
      ∀ name, u.store.contains name = true →
        t.store.contains name = true ∨ ∃ q ∈ p :: p.alternatives, name = q.name := by
  rcases ht : (m.completing (ts ++ [w]) ts.length).taker t p with ⟨_ | ⟨node, value⟩, calls⟩
  · exact ⟨_, _, hv.step_eq.trans (visit_pass ht ho), rfl, g.goesOn_pass hg, rfl, rfl, fun _ h => h,
      fun _ h => .inl h⟩
  · have hk := (keepsWord_typing (m := m) (w := w) hc p).trans ho
    have hnode := (taker_some ht).1
    refine ⟨_, _, hv.step_eq.trans (visit_keep ht hk), rfl, g.goesOn_take hg p, rfl, rfl,
      fun _ h => Store.contains_record_of_contains h, fun name h => ?_⟩
    rcases (contains_record_iff hnode).1 h with h | h | h
    · exact .inr ⟨node, p.choices_subset node hnode, h⟩
    · exact .inr ⟨p, List.mem_cons_self, h⟩
    · exact .inl h

/-! ## What is offered there -/

/-- The candidates that a parameter brings where no word is. -/
def newly (recorded : Store) (p : Param) : List Entry :=
  if recorded.contains p.name then [] else p.choices.map fun q => ⟨q, ""⟩

theorem name_of_mem_newly {e : Entry} (h : e ∈ newly recorded p) : ∃ q ∈ p :: p.alternatives, e.name = q.name := by
  unfold newly at h
  split at h
  · cases h
  · obtain ⟨q, hq, rfl⟩ := List.mem_map.1 h
    exact ⟨q, p.choices_subset q hq, rfl⟩

theorem nodup_names_offer (h : s.candidates.names.Nodup) (p : Param) : (m.offer s p).names.Nodup := by
  rcases offer_cases m s p with heq | ⟨ht, hn⟩
  · exact heq ▸ h
  · rw [offer_eq ht hn]
    exact Store.nodup_names_insertAll h _

/-- At the place of the word being completed, the choices of a parameter that the word may
    stand for are offered after what was offered before. -/
theorem entries_offer (ht : m.atTarget s = true) (htests : ∀ q ∈ p :: p.alternatives, q.test = none)
    (hnames : ((p :: p.alternatives).map Param.name).Nodup)
    (hnew : ∀ q ∈ p :: p.alternatives, s.candidates.contains q.name = false) :
    (m.offer s p).entries = s.candidates.entries ++
      if s.store.contains p.name then []
      else (p.choices.filter fun q => (m.word? s).all q.admits).map fun q => ⟨q, (m.word? s).getD ""⟩ := by
  rcases hp : s.store.contains p.name with _ | _
  · have hoffers : m.offers s p = p.choices.filter fun q => (m.word? s).all q.admits := by
      refine List.filter_congr fun q hq => ?_
      rw [applies_of_untested s (htests q (p.choices_subset q hq)), Bool.true_and]
    rw [offer_eq ht hp, hoffers, if_neg (by simp)]
    refine (Store.insertAll_appends_iff.2 ⟨?_, fun x hx => ?_⟩).trans ?_
    · rw [List.map_map]
      exact ((List.filter_sublist.trans p.choices_sublist).map _).nodup hnames
    · obtain ⟨q, hq, rfl⟩ := List.mem_map.1 hx
      exact hnew q (p.choices_subset q (List.mem_filter.1 hq).1)
    · rw [Store.entriesOf, List.map_map]
      rfl
  · rw [offer, hp, if_neg (by simp), if_pos rfl, List.append_nil]

/-- Where no word is, these are all its choices. -/
theorem offer_boundary (hc : b.cursor = ts.length) (htests : ∀ q ∈ p :: p.alternatives, q.test = none)
    (hnames : ((p :: p.alternatives).map Param.name).Nodup)
    (hnew : ∀ q ∈ p :: p.alternatives, b.candidates.contains q.name = false) :
    ((m.completing ts ts.length).offer b p).entries = b.candidates.entries ++ newly b.store p := by
  rw [entries_offer (atTarget_of_cursor hc) htests hnames hnew, word?_completing hc, newly]
  simp

/-- At a word, those of them that the word may stand for. -/
theorem offer_typing (hc : t.cursor = ts.length) (htests : ∀ q ∈ p :: p.alternatives, q.test = none)
    (hnames : ((p :: p.alternatives).map Param.name).Nodup)
    (hnew : ∀ q ∈ p :: p.alternatives, t.candidates.contains q.name = false) :
    ((m.completing (ts ++ [w]) ts.length).offer t p).entries =
      t.candidates.entries ++ typed w.text (newly t.store p) := by
  rw [entries_offer (atTarget_of_cursor hc) htests hnames hnew, word?_typing hc, newly]
  split
  · rfl
  · rw [typed, List.filter_map, List.map_map]
    rfl

/-! ## A run behind another -/

/-- The parameter is optional and behind: no name of it comes again, and its candidates
    are there unless it was recorded before the word. -/
structure Passed (word : String) (rest : List Param) (recorded found : Store) (p : Param) : Prop where
  optional : p.isOptional = true
  untested : ∀ q ∈ p :: p.alternatives, q.test = none
  apart : ∀ q ∈ p :: p.alternatives, ∀ r ∈ rest, q.name ≠ r.name
  offered : ∀ e ∈ typed word (newly recorded p), e ∈ found.entries

theorem Passed.mono {rest' : List Param} {found' : Store} (h : Passed word rest recorded found p)
    (hrest : ∀ r ∈ rest', r ∈ rest) (hfound : ∀ e ∈ found.entries, e ∈ found'.entries) :
    Passed word rest' recorded found' p :=
  ⟨h.optional, h.untested, fun q hq r hr => h.apart q hq r (hrest r hr), fun e he => hfound e (h.offered e he)⟩

/-- `g` is the list `f` at a place no further on, and has passed all from its floor to
    the place where `f` is. -/
structure Behind (word : String) (rest : List Param) (recorded found : Store) (f g : Frame) : Prop where
  params : g.params = f.params
  floor_index : g.floor ≤ g.index
  index_le : g.index ≤ f.index
  passed : ∀ i p, g.floor ≤ i → i < f.index → f.params[i]? = some p → Passed word rest recorded found p

/-- `b` is a state of the match that sees no word, and `t` one of the match that sees the
    word being typed, both at its place. They scan the same lists, `t` perhaps behind in
    the innermost; all that is still before `b` has new names; and `t` has the candidates
    of `b` that the word may stand for. -/
structure Trails (n : Nat) (word : String) (b t : State) : Prop where
  cursor : b.cursor = n
  cursor_eq : t.cursor = b.cursor
  apart : ((ahead b.frames).map Param.name).Nodup
  untested : ∀ q ∈ ahead b.frames, q.test = none
  settled : ∀ f ∈ b.frames.tail, f.index = f.floor
  unoffered : ∀ q ∈ ahead b.frames, b.candidates.contains q.name = false
  grown : ∀ name, b.store.contains name = true → t.store.contains name = true
  level : ∀ q ∈ ahead b.frames, t.store.contains q.name = true → b.store.contains q.name = true
  once : t.candidates.names.Nodup
  candidates : t.candidates.entries = typed word b.candidates.entries
  frames : (b.frames = [] ∧ t.frames = []) ∨ ∃ f g fs, b.frames = f :: fs ∧ t.frames = g :: fs ∧
    Behind word (ahead b.frames) b.store t.candidates f g

/-- Where a list is at its floor nothing is passed. -/
theorem behind_of_settled (h : f.index = f.floor) : Behind word rest recorded found f f :=
  ⟨rfl, Nat.le_of_eq h.symm, Nat.le_refl _, fun _ _ hle hlt _ => absurd hlt (by omega)⟩

/-- The list behind goes on and is still no further than the other. -/
theorem Behind.follow {g' : Frame} (h : Behind word rest recorded found f g) (hg : g.GoesOn g')
    (hlt : g.index < f.index) : Behind word rest recorded found f g' where
  params := hg.params.trans h.params
  floor_index := hg.floor_index
  index_le := Nat.le_trans hg.index_le hlt
  passed := fun i p hi => h.passed i p (Nat.le_trans hg.floor_le hi)

/-- Both lists go on from one place, which is then behind them. -/
theorem Behind.advance {g' : Frame} {rest' : List Param} {found' : Store}
    (h : Behind word rest recorded found f g) (hg : g.GoesOn g') (heq : g.index = f.index)
    (hp : f.params[f.index]? = some p) (hpassed : Passed word rest' recorded found' p)
    (hrest : ∀ r ∈ rest', r ∈ rest) (hfound : ∀ e ∈ found.entries, e ∈ found'.entries) :
    Behind word rest' recorded found' f.pass g' where
  params := hg.params.trans h.params
  floor_index := hg.floor_index
  index_le := by
    show g'.index ≤ f.index + 1
    rw [← heq]
    exact hg.index_le
  passed := fun i q hi hlt hq => by
    rcases Nat.lt_succ_iff_lt_or_eq.1 hlt with hlt | rfl
    · exact (h.passed i q (Nat.le_trans hg.floor_le hi) hlt hq).mono hrest hfound
    · have hsame : some q = some p := hq.symm.trans hp
      cases hsame
      exact hpassed

/-- A parameter passed is offered again without effect. -/
theorem offer_passed (hc : t.cursor = ts.length) (honce : t.candidates.names.Nodup)
    (hgrown : recorded.contains p.name = true → t.store.contains p.name = true)
    (h : Passed w.text rest recorded t.candidates p) :
    (m.completing (ts ++ [w]) ts.length).offer t p = t.candidates := by
  rcases offer_cases (m.completing (ts ++ [w]) ts.length) t p with heq | ⟨ht, hnew⟩
  · exact heq
  have hrecorded : recorded.contains p.name = false := Bool.eq_false_iff.2 fun hr => by
    rw [hgrown hr] at hnew
    cases hnew
  rw [offer_eq ht hnew, word?_typing hc]
  refine Store.insertAll_of_mem honce fun e he => h.offered e ?_
  obtain ⟨x, hx, rfl⟩ := List.mem_map.1 he
  obtain ⟨q, hq, rfl⟩ := List.mem_map.1 hx
  obtain ⟨hchoice, hadmits⟩ := List.mem_filter.1 hq
  rw [word?_typing hc, Bool.and_eq_true] at hadmits
  rw [newly, hrecorded, if_neg (by simp)]
  exact List.mem_map.2 ⟨⟨q, ""⟩, List.mem_filter.2 ⟨List.mem_map_of_mem hchoice, hadmits.2⟩, rfl⟩

/-- The run behind visits a parameter passed, and trails on. -/
theorem Trails.catch_up (h : Trails ts.length w.text b t) (hb : b.frames = f :: fs) (ht : t.frames = g :: fs)
    (hbehind : Behind w.text (ahead b.frames) b.store t.candidates f g) (hlt : g.index < f.index)
    (hp : g.params[g.index]? = some p) :
    ∃ u, (m.completing (ts ++ [w]) ts.length).step t = .go u ∧ Trails ts.length w.text b u := by
  have hc : t.cursor = ts.length := h.cursor_eq.trans h.cursor
  have hpassed := hbehind.passed g.index p hbehind.floor_index hlt (hbehind.params ▸ hp)
  have hv : (m.completing (ts ++ [w]) ts.length).Visits t g fs p :=
    ⟨ht, hp, applies_of_untested t (hpassed.untested p List.mem_cons_self)⟩
  obtain ⟨u, g', hstep, hu, hg', hcursor, hfound, hgrown, hnames⟩ :=
    linger hv hpassed.optional hc hbehind.floor_index
  rw [offer_passed hc h.once (h.grown p.name) hpassed] at hfound
  refine ⟨u, hstep, { h with
    cursor_eq := hcursor.trans h.cursor_eq
    grown := fun name hn => hgrown name (h.grown name hn)
    level := fun q hq hn => ?_
    once := hfound ▸ h.once
    candidates := hfound ▸ h.candidates
    frames := .inr ⟨f, g', fs, hb, hu, hfound ▸ hbehind.follow hg' hlt⟩ }⟩
  rcases hnames q.name hn with hn | ⟨r, hr, heq⟩
  · exact h.level q hq hn
  · exact absurd heq.symm (hpassed.apart r hr q hq)

/-- Both runs are through with a list. -/
theorem Trails.leave (h : Trails ts.length w.text b t) (hb : b.frames = f :: fs) (ht : t.frames = g :: fs)
    (hf : f.params[f.index]? = none) :
    Trails ts.length w.text { b with frames := fs } { t with frames := fs } := by
  have hahead : ahead fs = ahead b.frames := by rw [hb, ahead_leave hf]
  have hsettled := h.settled
  rw [hb] at hsettled
  refine { h with
    apart := hahead ▸ h.apart
    untested := hahead ▸ h.untested
    settled := fun k hk => hsettled k (List.mem_of_mem_tail hk)
    unoffered := hahead ▸ h.unoffered
    level := hahead ▸ h.level
    frames := ?_ }
  rcases fs with _ | ⟨k, ks⟩
  · exact .inl ⟨rfl, rfl⟩
  · exact .inr ⟨k, k, ks, rfl, rfl, behind_of_settled (hsettled k List.mem_cons_self)⟩

/-- The parameter under the index is the first of those still ahead, with new names. -/
theorem Trails.split (h : Trails ts.length word b t) (hb : b.frames = f :: fs) (hp : f.params[f.index]? = some p) :
    ((p :: p.alternatives).map Param.name).Nodup ∧ ((ahead (f.pass :: fs)).map Param.name).Nodup ∧
      (∀ q ∈ p :: p.alternatives, ∀ r ∈ ahead (f.pass :: fs), q.name ≠ r.name) ∧
      (∀ q ∈ p :: p.alternatives, q ∈ ahead b.frames) ∧ ∀ r ∈ ahead (f.pass :: fs), r ∈ ahead b.frames := by
  have hsplit : ahead b.frames = (p :: p.alternatives) ++ ahead (f.pass :: fs) := hb ▸ ahead_pass hp
  have hnodup := h.apart
  rw [hsplit, List.map_append] at hnodup
  obtain ⟨hhere, hrest, hdisjoint⟩ := List.nodup_append.1 hnodup
  refine ⟨hhere, hrest, fun q hq r hr => ?_, fun q hq => ?_, fun r hr => ?_⟩
  · exact hdisjoint q.name (List.mem_map_of_mem hq) r.name (List.mem_map_of_mem hr)
  · exact hsplit ▸ List.mem_append_left _ hq
  · exact hsplit ▸ List.mem_append_right _ hr

/-- At the parameter under the index both runs offer the same, after what was offered before. -/
theorem Trails.offer (h : Trails ts.length w.text b t) (hb : b.frames = f :: fs)
    (hp : f.params[f.index]? = some p) :
    ((m.completing ts ts.length).offer b p).entries = b.candidates.entries ++ newly b.store p ∧
      ((m.completing (ts ++ [w]) ts.length).offer t p).entries =
        t.candidates.entries ++ typed w.text (newly b.store p) := by
  obtain ⟨hnames, -, -, hhere, -⟩ := h.split hb hp
  have htests : ∀ q ∈ p :: p.alternatives, q.test = none := fun q hq => h.untested q (hhere q hq)
  have hnew : ∀ q ∈ p :: p.alternatives, b.candidates.contains q.name = false :=
    fun q hq => h.unoffered q (hhere q hq)
  have hnew' : ∀ q ∈ p :: p.alternatives, t.candidates.contains q.name = false := fun q hq => by
    rw [Store.not_contains_iff, Store.names, h.candidates]
    exact fun hn => Store.not_contains_iff.1 (hnew q hq) ((names_typed_sublist w.text _).mem hn)
  have hlevel : t.store.contains p.name = b.store.contains p.name :=
    Bool.eq_iff_iff.2 ⟨h.level p (hhere p List.mem_cons_self), h.grown p.name⟩
  refine ⟨offer_boundary h.cursor htests hnames hnew, ?_⟩
  rw [offer_typing (h.cursor_eq.trans h.cursor) htests hnames hnew', newly, newly, hlevel]

/-- Both runs visit an optional parameter, and the second trails on. -/
theorem Trails.advance (h : Trails ts.length w.text b t) (hb : b.frames = f :: fs) (ht : t.frames = g :: fs)
    (hbehind : Behind w.text (ahead b.frames) b.store t.candidates f g) (heq : g.index = f.index)
    (hp : f.params[f.index]? = some p) (ho : p.isOptional = true) :
    ∃ u v, (m.completing (ts ++ [w]) ts.length).step t = .go u ∧ (m.completing ts ts.length).step b = .go v ∧
      Trails ts.length w.text v u := by
  obtain ⟨hnames, hrest, hdisjoint, hhere, hsub⟩ := h.split hb hp
  obtain ⟨hoffer, hoffer'⟩ := h.offer (m := m) hb hp
  have hptest : p.test = none := h.untested p (hhere p List.mem_cons_self)
  have hvb : (m.completing ts ts.length).Visits b f fs p := ⟨hb, hp, applies_of_untested b hptest⟩
  have hvt : (m.completing (ts ++ [w]) ts.length).Visits t g fs p :=
    ⟨ht, by rw [hbehind.params, heq]; exact hp, applies_of_untested t hptest⟩
  obtain ⟨u, g', hstep, hu, hg', hcursor, hfound, hgrown, hadded⟩ :=
    linger hvt ho (h.cursor_eq.trans h.cursor) hbehind.floor_index
  have hgo := hvb.step_eq.trans (visit_pass (taker_completing h.cursor p) ho)
  have hsettled := h.settled
  rw [hb] at hsettled
  have hfound' : u.candidates.entries = t.candidates.entries ++ typed w.text (newly b.store p) := by
    rw [hfound, hoffer']
  have hpassed : Passed w.text (ahead (f.pass :: fs)) b.store u.candidates p :=
    ⟨ho, fun r hr => h.untested r (hhere r hr), hdisjoint, fun e he => hfound' ▸ List.mem_append_right _ he⟩
  have hgrows : ∀ e ∈ t.candidates.entries, e ∈ u.candidates.entries :=
    fun e he => hfound' ▸ List.mem_append_left _ he
  refine ⟨u, _, hstep, hgo, ?_⟩
  exact {
    cursor := h.cursor
    cursor_eq := hcursor.trans h.cursor_eq
    apart := hrest
    untested := fun q hq => h.untested q (hsub q hq)
    settled := hsettled
    unoffered := fun q hq => by
      rw [Store.not_contains_iff, Store.names, hoffer, List.map_append, List.mem_append]
      rintro (hn | hn)
      · exact Store.not_contains_iff.1 (h.unoffered q (hsub q hq)) hn
      · obtain ⟨e, he, hname⟩ := List.mem_map.1 hn
        obtain ⟨r, hr, hr'⟩ := name_of_mem_newly he
        exact hdisjoint r hr q hq (hr'.symm.trans hname)
    grown := fun name hn => hgrown name (h.grown name hn)
    level := fun q hq hn => by
      rcases hadded q.name hn with hn | ⟨r, hr, hr'⟩
      · exact h.level q (hsub q hq) hn
      · exact absurd hr'.symm (hdisjoint r hr q hq)
    once := hfound ▸ nodup_names_offer h.once p
    candidates := by
      show u.candidates.entries = typed w.text ((m.completing ts ts.length).offer b p).entries
      rw [hfound', hoffer, typed_append, h.candidates]
    frames := .inr ⟨f.pass, g', fs, rfl, hu, hbehind.advance hg' heq hp hpassed hsub hgrows⟩ }

/-- What comes of the two runs next. -/
inductive Onward (m : Setting) (ts : List Token) (w : Token) (b t : State) : Prop
  | catchUp (u : State) : (m.completing (ts ++ [w]) ts.length).step t = .go u → Trails ts.length w.text b u →
      Onward m ts w b t
  | together (u v : State) : (m.completing (ts ++ [w]) ts.length).step t = .go u →
      (m.completing ts ts.length).step b = .go v → Trails ts.length w.text v u → Onward m ts w b t
  /-- All lists are through. -/
  | through : b.frames = [] → t.frames = [] → Onward m ts w b t
  /-- At a mandatory parameter the first run ends, and the second ends or takes the word. -/
  | last (status : Status) (v : State) : (m.completing ts ts.length).step b = .stop status v →
      ((m.completing (ts ++ [w]) ts.length).step t).state.candidates.entries = typed w.text v.candidates.entries →
      (∀ u, (m.completing (ts ++ [w]) ts.length).step t = .go u → ts.length < u.cursor) → Onward m ts w b t

theorem Trails.onward (h : Trails ts.length w.text b t) : Onward m ts w b t := by
  rcases h.frames with ⟨hb, ht⟩ | ⟨f, g, fs, hb, ht, hbehind⟩
  · exact .through hb ht
  have hc : t.cursor = ts.length := h.cursor_eq.trans h.cursor
  rcases hp : g.params[g.index]? with _ | p
  · have hf : f.params[f.index]? = none := by
      rw [← hbehind.params]
      exact List.getElem?_eq_none_iff.2 (Nat.le_trans (List.getElem?_eq_none_iff.1 hp) hbehind.index_le)
    exact .together _ _ (step_leave ht hp) (step_leave hb hf) (h.leave hb ht hf)
  rcases Nat.lt_or_eq_of_le hbehind.index_le with hlt | heq
  · obtain ⟨u, hu, h'⟩ := h.catch_up (m := m) hb ht hbehind hlt hp
    exact .catchUp u hu h'
  have hpf : f.params[f.index]? = some p := by rw [← hbehind.params, ← heq]; exact hp
  rcases ho : p.isOptional with _ | _
  · obtain ⟨-, -, -, hhere, -⟩ := h.split hb hpf
    obtain ⟨hoffer, hoffer'⟩ := h.offer (m := m) hb hpf
    have hptest : p.test = none := h.untested p (hhere p List.mem_cons_self)
    have hvb : (m.completing ts ts.length).Visits b f fs p := ⟨hb, hpf, applies_of_untested b hptest⟩
    have hvt : (m.completing (ts ++ [w]) ts.length).Visits t g fs p := ⟨ht, hp, applies_of_untested t hptest⟩
    refine .last _ _ (hvb.step_eq.trans (visit_refuse (taker_completing h.cursor p) ho)) ?_ fun u hu => ?_
    · rw [hvt.candidates, hoffer', hoffer, typed_append, h.candidates]
    · have hk := (keepsWord_typing (m := m) (w := w) hc p).trans ho
      rw [hvt.step_eq] at hu
      rcases htaker : (m.completing (ts ++ [w]) ts.length).taker t p with ⟨_ | ⟨node, value⟩, calls⟩
      · rw [visit_refuse htaker ho] at hu
        cases hu
      · rw [visit_take htaker hk] at hu
        cases hu
        show ts.length < t.cursor + 1
        omega
  · obtain ⟨u, v, hu, hv, h'⟩ := h.advance (m := m) hb ht hbehind heq hpf ho
    exact .together u v hu hv h'

/-! ## The parameter for words left over -/

/-- Away from the target no visit brings a candidate. -/
theorem step_candidates_away (hf : s.frames ≠ []) (h : m.atTarget s = false) :
    (m.step s).state.candidates = s.candidates := by
  have hnone : m.offerings s = [] := by
    rcases idle_or_visits (m := m) hf with ⟨-, hnil⟩ | ⟨f, fs, p, hv⟩
    · exact hnil
    · rw [hv.offerings, h]
      rfl
  rw [step_candidates, hnone]
  rfl

/-- At the end of all lists a step brings at most the parameter for words left over. -/
theorem close_besides (m : Setting) (s : State) :
    (m.close s).2.candidates.besides m.command.args = s.candidates.besides m.command.args := by
  rcases close_candidates m s with heq | ⟨args, ha, hempty, heq⟩
  · rw [heq]
  · have hnil : s.candidates.entries = [] := List.isEmpty_iff.1 hempty
    simp [heq, Store.besides, Store.insert, Store.put, hnil, ha, Entry.name]

/-- Away from the target a step brings no candidate but the parameter for words left over. -/
theorem step_besides (h : m.atTarget s = false) :
    (m.step s).state.candidates.besides m.command.args = s.candidates.besides m.command.args := by
  by_cases hf : s.frames = []
  · rw [step_close hf]
    exact close_besides m s
  · rw [step_candidates_away hf h]

/-- Past the target a match brings no candidate but the parameter for words left over. -/
theorem finish_besides {target : Nat} (htarget : m.target = some target) (h : target < s.cursor) :
    (m.finish s).2.candidates.besides m.command.args = s.candidates.besides m.command.args := by
  have haway : ∀ s : State, target < s.cursor → m.atTarget s = false := fun s hlt => by
    simp [atTarget, htarget, Nat.ne_of_lt hlt]
  induction s using run_induction (m := m) with
  | stop s status t hs =>
    have hstep := step_besides (m := m) (haway s h)
    rw [hs] at hstep
    rw [finish_of_stop hs]
    exact hstep
  | go s t hs ih =>
    have hstep := step_besides (m := m) (haway s h)
    rw [hs] at hstep
    rw [finish_of_go hs, ih (Nat.lt_of_lt_of_le h (step_cursor_le hs))]
    exact hstep

/-! ## Whole matches -/

/-- Where both runs are through with all lists, they end. -/
theorem through_filters (hb : b.frames = []) (ht : t.frames = [])
    (h : t.candidates.entries = typed w.text b.candidates.entries) :
    ((m.completing (ts ++ [w]) ts.length).finish t).2.candidates.besides m.command.args =
      typed w.text (((m.completing ts ts.length).finish b).2.candidates.besides m.command.args) := by
  have hbesides := close_besides (m.completing ts ts.length) b
  have hbesides' := close_besides (m.completing (ts ++ [w]) ts.length) t
  rw [finish_of_stop (step_close ht), finish_of_stop (step_close hb)]
  exact hbesides'.trans ((besides_typed h _).trans (congrArg _ hbesides.symm))

/-- A match that trails another ends with those of its candidates that the word may stand for. -/
theorem Trails.finish (h : Trails ts.length w.text b t) :
    ((m.completing (ts ++ [w]) ts.length).finish t).2.candidates.besides m.command.args =
      typed w.text (((m.completing ts ts.length).finish b).2.candidates.besides m.command.args) := by
  induction t using run_induction (m := m.completing (ts ++ [w]) ts.length) generalizing b with
  | stop t status t' hs =>
    cases h.onward (m := m) with
    | catchUp u hu _ => rw [hs] at hu; cases hu
    | together u v hu _ _ => rw [hs] at hu; cases hu
    | through hb ht => exact through_filters hb ht h.candidates
    | last ended v hv hlast _ =>
      rw [hs] at hlast
      rw [finish_of_stop hs, finish_of_stop hv]
      exact besides_typed hlast _
  | go t t' hs ih =>
    cases h.onward (m := m) with
    | catchUp u hu h' =>
      rw [hs] at hu
      cases hu
      rw [finish_of_go hs]
      exact ih h'
    | together u v hu hv h' =>
      rw [hs] at hu
      cases hu
      rw [finish_of_go hs, finish_of_go hv]
      exact ih h'
    | through hb ht => exact through_filters hb ht h.candidates
    | last ended v hv hlast hpast =>
      rw [hs] at hlast
      rw [finish_of_go hs, finish_of_stop hv]
      exact (finish_besides rfl (hpast t' hs)).trans (besides_typed hlast _)

/-- Where the word being typed has its place both runs are in one state, and trail begins. -/
theorem Tidy.trails (h : Tidy s) (hc : s.cursor = ts.length) (hnone : s.candidates.entries = [])
    (hsettled : ∀ f ∈ s.frames, f.index = f.floor) : Trails ts.length w.text s s where
  cursor := hc
  cursor_eq := rfl
  apart := ((ahead_sublist s.frames).map _).nodup h.apart.onStack_nodup
  untested := fun q hq => by
    obtain ⟨f, hf, hqf⟩ := List.mem_flatMap.1 hq
    exact h.untested f hf q (((nodes_drop_sublist _ _).trans (nodes_sublist_allNodes _)).mem hqf)
  settled := h.settled
  unoffered := fun q _ => by
    rw [Store.not_contains_iff, Store.names, hnone]
    exact List.not_mem_nil
  grown := fun _ hn => hn
  level := fun _ _ hn => hn
  once := by
    rw [Store.names, hnone]
    exact List.nodup_nil
  candidates := by rw [hnone]; rfl
  frames := by
    rcases hf : s.frames with _ | ⟨f, fs⟩
    · exact .inl ⟨rfl, rfl⟩
    · have hfloor : f.index = f.floor := hsettled f (by rw [hf]; exact List.mem_cons_self)
      exact .inr ⟨f, f, fs, rfl, rfl, behind_of_settled hfloor⟩

theorem atTarget_completing (us : List Token) (h : s.cursor ≠ ts.length) :
    (m.completing us ts.length).atTarget s = false := by
  simp [atTarget, completing, Ne.symm h]

/-- Before its place the word being typed is not seen. -/
theorem step_typing (hlt : s.cursor < ts.length) (hf : s.frames ≠ []) :
    (m.completing (ts ++ [w]) ts.length).step s = (m.completing ts ts.length).step s := by
  have htarget : ∀ us : List Token, (m.completing us ts.length).atTarget s = false :=
    fun us => atTarget_completing us (Nat.ne_of_lt hlt)
  refine step_congr rfl rfl ?_ ((htarget _).trans (htarget _).symm) (fun p => ?_) hf
  · exact word?_append (m := m) hlt
  · simp only [keepsWord, htarget, Bool.and_false, Bool.false_and]

/-- At the place of the word, or past it, typing filters the candidates to come. -/
theorem Tidy.filters_of_le (h : Tidy s) (hnone : s.candidates.entries = []) (hle : ts.length ≤ s.cursor)
    (hsettled : s.cursor = ts.length → ∀ f ∈ s.frames, f.index = f.floor) :
    ((m.completing (ts ++ [w]) ts.length).finish s).2.candidates.besides m.command.args =
      typed w.text (((m.completing ts ts.length).finish s).2.candidates.besides m.command.args) := by
  rcases Nat.eq_or_lt_of_le hle with heq | hlt
  · exact (h.trails heq.symm hnone (hsettled heq.symm)).finish
  · have hpast := finish_besides (m := m.completing ts ts.length) rfl hlt
    have hpast' := finish_besides (m := m.completing (ts ++ [w]) ts.length) rfl hlt
    exact hpast'.trans ((besides_typed (by rw [hnone]; rfl) _).trans (congrArg _ hpast.symm))

/-- Typing filters the candidates of every match from a state with lists apart, where none
    has been offered and, at the place of the word, every list stands at its floor. -/
theorem Tidy.filters (h : Tidy s) (hnone : s.candidates.entries = [])
    (hsettled : s.cursor = ts.length → ∀ f ∈ s.frames, f.index = f.floor) :
    ((m.completing (ts ++ [w]) ts.length).finish s).2.candidates.besides m.command.args =
      typed w.text (((m.completing ts ts.length).finish s).2.candidates.besides m.command.args) := by
  induction s using run_induction (m := m.completing ts ts.length) with
  | stop s status t hs =>
    rcases Nat.lt_or_ge s.cursor ts.length with hlt | hle
    · by_cases hf : s.frames = []
      · exact through_filters hf hf (by rw [hnone]; rfl)
      · have hcandidates := step_candidates_away (m := m.completing ts ts.length) hf
          (atTarget_completing ts (Nat.ne_of_lt hlt))
        rw [hs] at hcandidates
        have hstopped : t.candidates.entries = [] := (congrArg Store.entries hcandidates).trans hnone
        rw [finish_of_stop hs, finish_of_stop ((step_typing hlt hf).trans hs)]
        exact besides_typed (by rw [hstopped]; rfl) _
    · exact h.filters_of_le hnone hle hsettled
  | go s t hs ih =>
    rcases Nat.lt_or_ge s.cursor ts.length with hlt | hle
    · have hf : s.frames ≠ [] := fun hf => by
        rw [step_close hf] at hs
        cases hs
      have hcandidates := step_candidates_away (m := m.completing ts ts.length) hf
        (atTarget_completing ts (Nat.ne_of_lt hlt))
      rw [hs] at hcandidates
      rw [finish_of_go hs, finish_of_go ((step_typing hlt hf).trans hs)]
      refine ih (h.step hs) (hcandidates ▸ hnone) fun heq => ?_
      exact settled_of_cursor_lt h hs (heq ▸ hlt)
    · exact h.filters_of_le hnone hle hsettled

/-- Typing part of a word filters the candidates for its place. Where no parameter of a
    command has a test and all of them have names of their own, the candidates at a word
    `w` after the words `ts` are, in order and with the text of `w` as their value, those
    for the place after `ts`, but the parameters whose keyword does not begin with the
    text; the parameter for words left over is left aside. -/
theorem typed_word_filters (m : Setting) (cursor : Nat) (store : Store) (ts : List Token) (w : Token)
    (htests : ∀ p ∈ allNodes m.command.params, p.test = none)
    (hnames : ((allNodes m.command.params).map Param.name).Nodup) :
    let first := start m.command.params cursor store
    ((m.completing (ts ++ [w]) ts.length).finish first).2.candidates.besides m.command.args =
      typed w.text (((m.completing ts ts.length).finish first).2.candidates.besides m.command.args) := by
  intro first
  refine (tidy_start htests hnames cursor store).filters rfl fun _ f hf => ?_
  rw [List.mem_singleton.1 hf]

open Matching.Sample in
/-- After `5`, `fast` is taken for the `mode` and stays where it is, and of `fast` and
    `slow` it leaves the one that it may stand for. -/
theorem tune_typed_word_filters :
    let first := start tune.params 0 .empty
    let w : Token := ⟨"fast", false, 0, 4⟩
    ((tuning.completing (unquoted ["5", "fast"]) 1).finish first).2.store.contains "mode" = true ∧
      (((tuning.completing (unquoted ["5"]) 1).finish first).2.candidates.besides tune.args).map Entry.name =
        ["fast", "slow"] ∧
      (((tuning.completing (unquoted ["5"] ++ [w]) 1).finish first).2.candidates.besides tune.args).map
        (fun e => (e.name, e.value)) = [("fast", "fast")] := by
  intro first w
  have hboundary : (((tuning.completing (unquoted ["5"]) 1).finish first).2.candidates.besides tune.args).map
      Entry.name = ["fast", "slow"] := by
    decide +kernel
  have hfilter := typed_word_filters tuning 0 .empty (unquoted ["5"]) w (by decide +kernel) (by decide +kernel)
  refine ⟨by decide +kernel, hboundary, (congrArg (List.map fun e => (e.name, e.value)) hfilter).trans ?_⟩
  decide +kernel

end Setting

end Matching

end LineMatch
