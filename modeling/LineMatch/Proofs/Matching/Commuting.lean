/-
  LineMatch.Proofs.Matching.Commuting — optional words in any order.

  A list of mandatory parameters, and after them optional ones that keep no order, each
  filled by one word. Each mandatory parameter takes its word and leaves the floor behind
  it, so with the last of them the floor stands before the first optional one. From there
  each word is looked for along the optional ones: those that do not accept it are passed,
  the one that does takes it, and the list goes on at the floor. Two such states differ in
  the words behind and the store alone, so the words may come in any order.

  Proved:
  - `exists_passed`, `exists_entered`: parameters that decline a word are passed, and the
    one that accepts it takes it.
  - `enters_required`, `enters_optional`: words for the mandatory and for the optional
    parameters, one after the other.
  - `optionals_commute`: the match of the words, and of any permutation of the optional ones.
-/

import Mathlib.Data.List.Nodup
import Mathlib.Data.List.Perm.Basic
import LineMatch.Proofs.Matching.Boundary
import LineMatch.Proofs.Matching.Nodes
import LineMatch.Proofs.Matching.Turns

namespace LineMatch

/-- Filled by one word, and this alone: without alternatives, a test or nested parameters. -/
structure Param.Single (p : Param) : Prop where
  noSwitch : p.isSwitch = false
  untested : p.test = none
  flat : p.params = []

namespace Matching

namespace Setting

variable {m : Setting} {s t u : State} {f : Frame} {fs : List Frame} {p : Param} {ps qs rest : List Param}
  {w : Token} {us ws ts : List Token} {e : Entry} {es os : List Entry}

/-! ## Words and their entries -/

/-- The match of other words. -/
def on (m : Setting) (ts : List Token) : Setting := { m with words := ts }

/-- The parameter of the entry makes its value of the word. -/
def Enters (m : Setting) (w : Token) (e : Entry) : Prop :=
  ∃ calls, (e.param.accept? m.run m.scope w.text calls).1 = some e.value

theorem Enters.accepts (h : m.Enters w e) : m.Accepts e.param w.text := by
  obtain ⟨calls, hvalue⟩ := h
  exact ⟨calls, by rw [hvalue]; rfl⟩

theorem Accepts.exists_enters (h : m.Accepts p w.text) : ∃ e : Entry, e.param = p ∧ m.Enters w e := by
  obtain ⟨calls, hsome⟩ := h
  obtain ⟨value, hvalue⟩ := Option.isSome_iff_exists.1 hsome
  exact ⟨⟨p, value⟩, rfl, calls, hvalue⟩

/-- The parameter is recorded, or does not accept the word under the cursor. -/
def Declines (m : Setting) (s : State) (p : Param) : Prop :=
  s.store.contains p.name = true ∨ ∀ word, m.word? s = some word → ¬ m.Accepts p word

theorem taker_of_declines (hp : p.Single) (h : m.Declines s p) : ∃ calls, m.taker s p = (none, calls) := by
  rcases ht : m.taker s p with ⟨_ | ⟨node, value⟩, calls⟩
  · exact ⟨calls, rfl⟩
  obtain ⟨token, htoken, hnew, hnode, -, before, hvalue⟩ := taker_spec ht
  rw [Param.choices_of_not_isSwitch hp.noSwitch] at hnode
  obtain rfl := List.mem_singleton.1 hnode
  rcases h with hold | hrefuses
  · rw [hnew] at hold
    cases hold
  · exact absurd ⟨before, by rw [hvalue]; rfl⟩ (hrefuses token.text (word?_of_getElem? htoken))

theorem taker_of_enters (hrun : m.run.IsSteady) (hp : e.param.Single) (hw : m.words[s.cursor]? = some w)
    (hnew : s.store.contains e.param.name = false) (he : m.Enters w e) :
    ∃ calls, m.taker s e.param = (some (e.param, e.value), calls) := by
  obtain ⟨before, hvalue⟩ := he
  rw [Param.accept?_steady hrun e.param m.scope w.text before s.calls] at hvalue
  rw [taker, word?_of_getElem? hw, Param.choices_of_not_isSwitch hp.noSwitch]
  simp only [hnew, firstToAccept, applies_of_untested s hp.untested, if_true]
  rcases haccept : e.param.accept? m.run m.scope w.text s.calls with ⟨answer, calls⟩
  rw [haccept] at hvalue
  obtain rfl : answer = some e.value := hvalue
  exact ⟨calls, rfl⟩

/-! ## Runs that enter words -/

/-- On the way from `s` to `t` one word for each of the entries `es` is left behind, and
    they are added to the store. -/
structure Entered (m : Setting) (s t : State) (es : List Entry) : Prop where
  reach : m.Reach s t
  cursor : t.cursor = s.cursor + es.length
  entries : t.store.entries = s.store.entries ++ es

namespace Entered

theorem refl (s : State) : m.Entered s s [] := ⟨.refl s, rfl, (List.append_nil _).symm⟩

theorem trans (h : m.Entered s t es) (h' : m.Entered t u os) : m.Entered s u (es ++ os) where
  reach := h.reach.trans h'.reach
  cursor := by rw [h'.cursor, h.cursor, List.length_append, Nat.add_assoc]
  entries := by rw [h'.entries, h.entries, List.append_assoc]

theorem names (h : m.Entered s t es) : t.store.names = s.store.names ++ es.map Entry.name := by
  rw [Store.names, h.entries, List.map_append]
  rfl

theorem drop (h : m.Entered s t es) (us : List Token) (hlength : us.length = es.length)
    (hwords : m.words.drop s.cursor = us ++ ts) : m.words.drop t.cursor = ts := by
  rw [h.cursor, ← List.drop_drop, hwords, ← hlength, List.drop_left]

theorem store_eq (h : m.Entered s t []) : t.store = s.store := congrArg Store.mk (h.entries.trans (List.append_nil _))

theorem cursor_eq (h : m.Entered s t []) : t.cursor = s.cursor := h.cursor

/-- Where no word is left behind the same parameters decline. -/
theorem declines (h : m.Entered s t []) (hp : m.Declines s p) : m.Declines t p := by
  rw [Declines, h.store_eq, word?, h.cursor_eq]
  exact hp

end Entered

/-- Optional parameters that decline the word are passed. -/
theorem exists_passed (hf : s.frames = f :: fs) (hdrop : f.params.drop f.index = qs ++ rest)
    (hqs : ∀ q ∈ qs, q.Single ∧ q.isOptional = true ∧ m.Declines s q) :
    ∃ t, m.Entered s t [] ∧ t.frames = { f with index := f.index + qs.length } :: fs := by
  induction qs generalizing s f with
  | nil => exact ⟨s, .refl s, hf⟩
  | cons q qs ih =>
    obtain ⟨hsingle, ho, hdeclines⟩ := hqs q List.mem_cons_self
    obtain ⟨calls, ht⟩ := taker_of_declines hsingle hdeclines
    have hv : m.Visits s f fs q := ⟨hf, getElem?_of_drop hdrop, applies_of_untested s hsingle.untested⟩
    have hstep := hv.step_eq.trans (visit_pass ht ho)
    have hpass : m.Entered s ⟨f.pass :: fs, s.cursor, s.store, m.offer s q, calls⟩ [] :=
      ⟨.step (.refl s) hstep, rfl, (List.append_nil _).symm⟩
    have hdrop' : f.pass.params.drop f.pass.index = qs ++ rest := by
      rw [Frame.pass, ← List.drop_drop, hdrop]
      rfl
    obtain ⟨t, ht, hframes⟩ := ih rfl hdrop' fun r hr => by
      obtain ⟨hr, ho, hd⟩ := hqs r (List.mem_cons_of_mem q hr)
      exact ⟨hr, ho, hpass.declines hd⟩
    refine ⟨t, hpass.trans ht, ?_⟩
    rw [hframes, Frame.pass, List.length_cons]
    simp only [Nat.add_assoc, Nat.add_comm 1]

/-- The first parameter that does not decline the word takes it. -/
theorem exists_entered (hrun : m.run.IsSteady) (hkeep : ∀ s p, m.keepsWord s p = false) (hf : s.frames = f :: fs)
    (hdrop : f.params.drop f.index = qs ++ e.param :: rest)
    (hqs : ∀ q ∈ qs, q.Single ∧ q.isOptional = true ∧ m.Declines s q) (hp : e.param.Single)
    (hw : m.words[s.cursor]? = some w) (hnew : s.store.contains e.param.name = false) (he : m.Enters w e) :
    ∃ t, m.Entered s t [e] ∧ t.frames = Frame.take ⟨f.params, f.index + qs.length, f.floor⟩ e.param :: fs := by
  obtain ⟨t, hpassed, hframes⟩ := exists_passed hf hdrop hqs
  obtain ⟨calls, ht⟩ := taker_of_enters hrun hp (hpassed.cursor_eq ▸ hw) (hpassed.store_eq ▸ hnew) he
  have hdrop' : f.params.drop (f.index + qs.length) = e.param :: rest := by
    rw [← List.drop_drop, hdrop, List.drop_left]
  have hv : m.Visits t ⟨f.params, f.index + qs.length, f.floor⟩ fs e.param :=
    ⟨hframes, getElem?_of_drop hdrop', applies_of_untested t hp.untested⟩
  have htake := hv.step_eq.trans (visit_take ht (hkeep t e.param))
  -- the list nested in the parameter is empty, so it is left at once
  refine ⟨_, hpassed.trans ⟨.step (.step (.refl t) htake) (step_leave rfl ?_), rfl, ?_⟩, rfl⟩
  · rw [hp.flat]
    rfl
  · simp only [Store.record, hp.noSwitch]
    exact Store.entries_insert_of_new (hpassed.store_eq ▸ hnew)

/-! ## Words one after the other -/

section

variable (hrun : m.run.IsSteady) (hkeep : ∀ s p, m.keepsWord s p = false)
include hrun hkeep

/-- Words for the mandatory parameters that stand from the index on. -/
theorem enters_required (hentered : List.Forall₂ m.Enters us es) {i : Nat} (hf : s.frames = ⟨ps, i, i⟩ :: fs)
    (hdrop : ps.drop i = es.map Entry.param ++ rest)
    (hes : ∀ e ∈ es, e.param.Single ∧ e.param.isOptional = false) (hwords : m.words.drop s.cursor = us ++ ts)
    (hnames : (s.store.names ++ es.map Entry.name).Nodup) :
    ∃ t, m.Entered s t es ∧ t.frames = ⟨ps, i + es.length, i + es.length⟩ :: fs := by
  induction hentered generalizing s i with
  | nil => exact ⟨s, .refl s, hf⟩
  | @cons w e us es he hrest ih =>
    obtain ⟨hp, hmandatory⟩ := hes e List.mem_cons_self
    have hw : m.words[s.cursor]? = some w := getElem?_of_drop hwords
    have hfirst : ps.drop i = [] ++ e.param :: (es.map Entry.param ++ rest) := hdrop
    obtain ⟨t, ht, htake⟩ := exists_entered hrun hkeep hf hfirst nofun hp hw (Store.new_of_nodup hnames) he
    have hframes : t.frames = ⟨ps, i + 1, i + 1⟩ :: fs := by
      rw [htake, Frame.take_of_isFence (Param.isFence_of_mandatory hmandatory)]
      rfl
    have hdrop' : ps.drop (i + 1) = es.map Entry.param ++ rest := by
      rw [← List.drop_drop, hdrop]
      rfl
    have hnames' : (t.store.names ++ es.map Entry.name).Nodup := by
      rw [ht.names, List.append_assoc]
      exact hnames
    obtain ⟨u, hu, hlast⟩ := ih hframes hdrop' (fun x hx => hes x (List.mem_cons_of_mem e hx))
      (ht.drop [w] rfl hwords) hnames'
    refine ⟨u, ht.trans hu, ?_⟩
    rw [hlast, List.length_cons, Nat.add_assoc, Nat.add_comm 1]

/-- Words for the optional parameters that stand from the floor on, in whatever order. -/
theorem enters_optional (hentered : List.Forall₂ (fun w e => e.param ∈ qs ∧ m.Enters w e) ws os) {k : Nat}
    (hf : s.frames = ⟨ps, k, k⟩ :: fs) (hdrop : ps.drop k = qs)
    (hqs : ∀ q ∈ qs, q.Single ∧ q.isOptional = true ∧ q.isOrdered = false)
    (honly : ∀ w ∈ ws, ∀ p ∈ qs, ∀ q ∈ qs, m.Accepts p w.text → m.Accepts q w.text → p = q)
    (hwords : m.words.drop s.cursor = ws ++ ts) (hnames : (s.store.names ++ os.map Entry.name).Nodup) :
    ∃ t, m.Entered s t os ∧ t.frames = ⟨ps, k, k⟩ :: fs := by
  induction hentered generalizing s with
  | nil => exact ⟨s, .refl s, hf⟩
  | @cons w e ws os he hrest ih =>
    obtain ⟨hmem, he⟩ := he
    obtain ⟨hp, ho, hu⟩ := hqs e.param hmem
    have hw : m.words[s.cursor]? = some w := getElem?_of_drop hwords
    obtain ⟨before, after, hsplit, hfirst⟩ := List.eq_append_cons_of_mem hmem
    -- what stands before is another parameter, so it does not accept the word
    have hpassed : ∀ q ∈ before, q.Single ∧ q.isOptional = true ∧ m.Declines s q := by
      intro q hq
      have hqmem : q ∈ qs := by
        rw [hsplit]
        exact List.mem_append_left _ hq
      obtain ⟨hsingle, hoptional, -⟩ := hqs q hqmem
      refine ⟨hsingle, hoptional, .inr fun word hsome hacc => ?_⟩
      rw [word?_of_getElem? hw] at hsome
      cases hsome
      have heq := honly w List.mem_cons_self q hqmem e.param hmem hacc he.accepts
      exact hfirst (heq ▸ hq)
    obtain ⟨t, ht, htake⟩ := exists_entered hrun hkeep hf (hdrop.trans hsplit) hpassed hp hw
      (Store.new_of_nodup hnames) he
    have hframes : t.frames = ⟨ps, k, k⟩ :: fs := by
      rw [htake, Frame.take_of_not_isFence (Param.isFence_of_unordered ho hu)]
    have hnames' : (t.store.names ++ os.map Entry.name).Nodup := by
      rw [ht.names, List.append_assoc]
      exact hnames
    obtain ⟨u, hu, hlast⟩ := ih hframes (fun x hx => honly x (List.mem_cons_of_mem w hx))
      (ht.drop [w] rfl hwords) hnames'
    exact ⟨u, ht.trans hu, hlast⟩

end

/-- Where no word is left all optional parameters are passed, and the match ends well. -/
theorem finish_of_no_words (hf : s.frames = [f]) (hdrop : f.params.drop f.index = qs)
    (hqs : ∀ q ∈ qs, q.Single ∧ q.isOptional = true) (hle : m.words.length ≤ s.cursor) :
    (m.finish s).1 = .ok ∧ (m.finish s).2.cursor = s.cursor ∧ (m.finish s).2.store = s.store := by
  have hword : m.word? s = none := by
    simp [word?, hle]
  have hdeclines : ∀ q ∈ qs, q.Single ∧ q.isOptional = true ∧ m.Declines s q := by
    intro q hq
    obtain ⟨hsingle, ho⟩ := hqs q hq
    refine ⟨hsingle, ho, .inr fun word hsome => ?_⟩
    rw [hword] at hsome
    cases hsome
  obtain ⟨t, ht, hframes⟩ := exists_passed hf (hdrop.trans (List.append_nil qs).symm) hdeclines
  have hend : f.params[f.index + qs.length]? = none := by
    rw [← List.head?_drop, ← List.drop_drop, hdrop, List.drop_length]
    rfl
  have hleave := step_leave (m := m) hframes hend
  rw [finish_eq_of_reach (.step ht.reach hleave), finish_of_stop (step_close rfl)]
  obtain ⟨hok, hc, hs⟩ := close_of_no_words (m := m) (s := { t with frames := [] }) (ht.cursor_eq ▸ hle)
  exact ⟨hok, hc.trans ht.cursor_eq, hs.trans ht.store_eq⟩

/-! ## Any order -/

theorem keepsWord_of_target (h : ∀ i, m.target = some i → i + 1 ≠ m.words.length) (s : State) (p : Param) :
    m.keepsWord s p = false := by
  rcases hk : m.keepsWord s p with _ | _
  · rfl
  · simp only [keepsWord, atTarget, Bool.and_eq_true, beq_iff_eq] at hk
    exact absurd hk.2 (h s.cursor hk.1.2)

theorem exists_word_of_mem {R : Token → Entry → Prop} (h : List.Forall₂ R ws os) (he : e ∈ os) : ∃ w ∈ ws, R w e := by
  induction h with
  | nil => cases he
  | cons hr _ ih =>
    rcases List.mem_cons.1 he with rfl | he
    · exact ⟨_, List.mem_cons_self, hr⟩
    · obtain ⟨w, hw, hr⟩ := ih he
      exact ⟨w, List.mem_cons_of_mem _ hw, hr⟩

/-- Words that parameters accept one for one have entries. -/
theorem exists_entries (h : List.Forall₂ (fun p w => m.Accepts p w.text) ps us) :
    ∃ es, es.map Entry.param = ps ∧ List.Forall₂ m.Enters us es := by
  induction h with
  | nil => exact ⟨[], rfl, .nil⟩
  | cons hacc _ ih =>
    obtain ⟨e, rfl, he⟩ := hacc.exists_enters
    obtain ⟨es, rfl, hes⟩ := ih
    exact ⟨e :: es, rfl, .cons he hes⟩

/-- Words each of which a parameter of the list accepts have entries; and if no parameter
    accepts two of them the entries have distinct parameters. -/
theorem exists_distinct_entries (haccepts : ∀ w ∈ ws, ∃ p, p ∈ qs ∧ m.Accepts p w.text)
    (hdistinct : ws.Pairwise fun v w => ∀ p ∈ qs, m.Accepts p v.text → ¬ m.Accepts p w.text) :
    ∃ os, List.Forall₂ (fun w e => e.param ∈ qs ∧ m.Enters w e) ws os ∧ (os.map Entry.param).Nodup := by
  induction ws with
  | nil => exact ⟨[], .nil, .nil⟩
  | cons w ws ih =>
    obtain ⟨hw, hdistinct⟩ := List.pairwise_cons.1 hdistinct
    obtain ⟨p, hp, hacc⟩ := haccepts w List.mem_cons_self
    obtain ⟨e, rfl, he⟩ := hacc.exists_enters
    obtain ⟨os, hos, hnodup⟩ := ih (fun v hv => haccepts v (List.mem_cons_of_mem w hv)) hdistinct
    refine ⟨e :: os, .cons ⟨hp, he⟩ hos, List.nodup_cons.2 ⟨?_, hnodup⟩⟩
    intro hmem
    obtain ⟨o, ho, hparam⟩ := List.mem_map.1 hmem
    obtain ⟨v, hv, -, hentered⟩ := exists_word_of_mem hos ho
    exact hw v hv e.param hp hacc (hparam ▸ hentered.accepts)

theorem nodup_names_of_entries (hnames : ((ps ++ qs).map Param.name).Nodup) (hmem : ∀ e ∈ os, e.param ∈ qs)
    (hnodup : (os.map Entry.param).Nodup) : (ps.map Param.name ++ os.map Entry.name).Nodup := by
  rw [List.map_append] at hnames
  obtain ⟨hps, hqs, hdisjoint⟩ := List.nodup_append.1 hnames
  have hparams : ∀ p ∈ os.map Entry.param, p ∈ qs := by
    intro p hp
    obtain ⟨e, he, rfl⟩ := List.mem_map.1 hp
    exact hmem e he
  have hos : os.map Entry.name = (os.map Entry.param).map Param.name := by
    rw [List.map_map]
    rfl
  rw [hos]
  refine List.nodup_append.2 ⟨hps, ?_, ?_⟩
  · refine List.Nodup.map_on (fun p hp q hq heq => ?_) hnodup
    exact List.inj_on_of_nodup_map hqs (hparams p hp) (hparams q hq) heq
  · intro name hname other hother
    obtain ⟨p, hp, rfl⟩ := List.mem_map.1 hother
    exact hdisjoint name hname p.name (List.mem_map_of_mem (hparams p hp))

/-- The match of words that are entered as `es` by the mandatory parameters, and as `os`
    by the optional ones, each of which has no other to accept it. -/
theorem finish_of_entries (hrun : m.run.IsSteady) (hkeep : ∀ s p, m.keepsWord s p = false) {before : List Token}
    (hwords : m.words = before ++ us ++ ws) (hsingle : ∀ p ∈ es.map Entry.param ++ qs, p.Single)
    (hes : ∀ e ∈ es, e.param.isOptional = false) (hqs : ∀ q ∈ qs, q.isOptional = true ∧ q.isOrdered = false)
    (hnames : ((es.map Entry.param ++ qs).map Param.name).Nodup) (hus : List.Forall₂ m.Enters us es)
    (hws : List.Forall₂ (fun w e => e.param ∈ qs ∧ m.Enters w e) ws os) (hnodup : (os.map Entry.param).Nodup)
    (honly : ∀ w ∈ ws, ∀ p ∈ qs, ∀ q ∈ qs, m.Accepts p w.text → m.Accepts q w.text → p = q) :
    let last := m.finish (start (es.map Entry.param ++ qs) before.length .empty)
    last.1 = .ok ∧ last.2.cursor = m.words.length ∧ last.2.store.entries = es ++ os := by
  have hqsingle : ∀ q ∈ qs, q.Single := fun q hq => hsingle q (List.mem_append_right _ hq)
  have hmem : ∀ e ∈ os, e.param ∈ qs := by
    intro e he
    obtain ⟨w, -, hq, -⟩ := exists_word_of_mem hws he
    exact hq
  have hentries : (es.map Entry.name ++ os.map Entry.name).Nodup := by
    have h := nodup_names_of_entries hnames hmem hnodup
    rw [List.map_map] at h
    exact h
  have hfirst : m.words.drop before.length = us ++ ws := by
    rw [hwords, List.append_assoc, List.drop_left]
  obtain ⟨t, ht, htframes⟩ := enters_required hrun hkeep (s := start (es.map Entry.param ++ qs) before.length .empty)
    hus rfl rfl (fun e he => ⟨hsingle _ (List.mem_append_left _ (List.mem_map_of_mem he)), hes e he⟩) hfirst
    (List.nodup_append.1 hentries).1
  have hdrop : (es.map Entry.param ++ qs).drop (0 + es.length) = qs := by
    rw [Nat.zero_add, ← List.length_map Entry.param, List.drop_left]
  have hsecond : m.words.drop t.cursor = ws ++ [] := by
    rw [List.append_nil]
    exact ht.drop us hus.length_eq hfirst
  have hnew : (t.store.names ++ os.map Entry.name).Nodup := by
    rw [ht.names]
    exact hentries
  obtain ⟨u, hu, huframes⟩ := enters_optional hrun hkeep hws htframes hdrop
    (fun q hq => ⟨hqsingle q hq, hqs q hq⟩) honly hsecond hnew
  have hcursor : u.cursor = m.words.length := by
    rw [(ht.trans hu).cursor, hwords, List.length_append, List.length_append, List.length_append, hus.length_eq,
      hws.length_eq, Nat.add_assoc]
    rfl
  obtain ⟨hok, hc, hs⟩ := finish_of_no_words huframes hdrop (fun q hq => ⟨hqsingle q hq, (hqs q hq).1⟩)
    (Nat.le_of_eq hcursor.symm)
  rw [finish_eq_of_reach (ht.trans hu).reach]
  refine ⟨hok, hc.trans hcursor, ?_⟩
  rw [hs, (ht.trans hu).entries]
  rfl

/-- Mandatory parameters and after them optional ones without order, each filled by one
    word, have distinct names; the words `us` are accepted one for one by the mandatory
    ones, and each of the words `ws` by just one of the optional ones, no two by the same.
    Then the match of `us` and any permutation of `ws` ends well, behind the last word. It
    records the entries of `us`, and then one entry for each of the others in the order in
    which these stand; these are the same entries for each permutation. The word that is
    being completed, if any, is not the last. -/
theorem optionals_commute (m : Setting) (hrun : m.run.IsSteady) (before us ws : List Token)
    (required optional : List Param) (hsingle : ∀ p ∈ required ++ optional, p.Single)
    (hrequired : ∀ p ∈ required, p.isOptional = false)
    (hoptional : ∀ p ∈ optional, p.isOptional = true ∧ p.isOrdered = false)
    (hnames : ((required ++ optional).map Param.name).Nodup)
    (hus : List.Forall₂ (fun p w => m.Accepts p w.text) required us)
    (hws : ∀ w ∈ ws, ∃! p, p ∈ optional ∧ m.Accepts p w.text)
    (hdistinct : ws.Pairwise fun v w => ∀ p ∈ optional, m.Accepts p v.text → ¬ m.Accepts p w.text)
    (htarget : ∀ i, m.target = some i → i + 1 ≠ (before ++ us ++ ws).length) :
    let result (ws' : List Token) :=
      (m.on (before ++ us ++ ws')).finish (start (required ++ optional) before.length .empty)
    ∃ es, es.map Entry.param = required ∧ List.Forall₂ m.Enters us es ∧
      ∀ ws', ws'.Perm ws →
        (result ws').1 = .ok ∧ (result ws').2.cursor = (before ++ us ++ ws').length ∧
          (∃ os, (result ws').2.store.entries = es ++ os ∧
            List.Forall₂ (fun w e => e.param ∈ optional ∧ m.Enters w e) ws' os) ∧
          (result ws').2.store.entries.Perm (result ws).2.store.entries := by
  intro result
  obtain ⟨es, hes, hentered⟩ := exists_entries hus
  obtain ⟨os, hos, hnodup⟩ := exists_distinct_entries (fun w hw => (hws w hw).exists) hdistinct
  refine ⟨es, hes, hentered, ?_⟩
  subst hes
  -- the run for one order of the words, in which they are entered as `os'`
  have hordered : ∀ ws' os', ws'.Perm ws → os'.Perm os →
      List.Forall₂ (fun w e => e.param ∈ optional ∧ m.Enters w e) ws' os' →
      (result ws').1 = .ok ∧ (result ws').2.cursor = (before ++ us ++ ws').length ∧
        (result ws').2.store.entries = es ++ os' := by
    intro ws' os' hws' hos' hentered'
    refine finish_of_entries (m := m.on (before ++ us ++ ws')) hrun (keepsWord_of_target ?_) rfl hsingle ?_ hoptional
      hnames hentered hentered' ((hos'.map _).nodup_iff.2 hnodup) ?_
    · intro i hi
      show i + 1 ≠ (before ++ us ++ ws').length
      rw [List.length_append, hws'.length_eq, ← List.length_append]
      exact htarget i hi
    · intro e he
      exact hrequired _ (List.mem_map_of_mem he)
    · intro w hw p hp q hq hpacc hqacc
      exact (hws w (hws'.subset hw)).unique ⟨hp, hpacc⟩ ⟨hq, hqacc⟩
  intro ws' hws'
  obtain ⟨os', hos', hperm⟩ := List.perm_comp_forall₂ hws' hos
  obtain ⟨hok, hcursor, hentries⟩ := hordered ws' os' hws' hperm hos'
  obtain ⟨-, -, hfirst⟩ := hordered ws os (.refl _) (.refl _) hos
  refine ⟨hok, hcursor, ⟨os', hentries, hos'⟩, ?_⟩
  rw [hentries, hfirst]
  exact hperm.append_left es

theorem accepts_iff (hrun : m.run.IsSteady) {word : String} :
    m.Accepts p word ↔ (p.accept? m.run m.scope word []).1.isSome = true := by
  constructor
  · rintro ⟨calls, hsome⟩
    rw [← Param.accept?_steady hrun p m.scope word calls []]
    exact hsome
  · intro hsome
    exact ⟨[], hsome⟩

/-- A parameter is the only one to accept a word if it alone is left of a list when those
    that do not are taken out. -/
theorem existsUnique_of_filter (hrun : m.run.IsSteady) {word : String}
    (h : (qs.filter fun q => (q.accept? m.run m.scope word []).1.isSome).length = 1) :
    ∃! p, p ∈ qs ∧ m.Accepts p word := by
  obtain ⟨p, hp⟩ := List.length_eq_one_iff.1 h
  have hmem : ∀ q, q ∈ qs ∧ m.Accepts q word ↔ q = p := by
    intro q
    rw [← List.mem_singleton (b := p), ← hp, List.mem_filter, accepts_iff hrun]
  exact ⟨p, (hmem p).2 rfl, fun q hq => (hmem q).1 hq⟩

end Setting

/-! ## A command with flags in any order -/

namespace Sample

/-- Takes a `disk`, and in any order `quiet`, `sync` and how many `passes`. -/
def wipe : Command where
  name := "wipe"
  params := [
    { name := "disk", type := "NUM" },
    { name := "quiet", type := "KW", mode := .subcommand "quiet", isOptional := true },
    { name := "sync", type := "KW", mode := .subcommand "sync", isOptional := true },
    { name := "passes", type := "NUM", isOptional := true }]

def wiping : Setting where
  run := never
  scope := { session := { grammar := {
    types := [{ name := "NUM", method := .unsignedInteger none none }, { name := "KW", method := .select ["quiet", "sync"] }]
    commands := [wipe] } } }
  command := wipe
  words := []

end Sample

open Matching.Sample Setting in
/-- `3 sync 7 quiet` and `3 7 quiet sync` are entered as the same values. -/
theorem wipe_commutes :
    let result (texts : List String) := (wiping.on (unquoted texts)).finish (start wipe.params 0 .empty)
    (result ["3", "7", "quiet", "sync"]).1 = .ok ∧
      (result ["3", "7", "quiet", "sync"]).2.store.entries.Perm (result ["3", "sync", "7", "quiet"]).2.store.entries := by
  intro result
  have hrun : wiping.run.IsSteady := fun _ _ _ => rfl
  have hsingle : ∀ p ∈ wipe.params, p.Single := by
    simp only [wipe, List.forall_mem_cons]
    exact ⟨⟨rfl, rfl, rfl⟩, ⟨rfl, rfl, rfl⟩, ⟨rfl, rfl, rfl⟩, ⟨rfl, rfl, rfl⟩, nofun⟩
  have hdisk : List.Forall₂ (fun p w => wiping.Accepts p w.text) (wipe.params.take 1) (unquoted ["3"]) :=
    .cons ⟨[], by decide +kernel⟩ .nil
  have honly : ∀ w ∈ unquoted ["sync", "7", "quiet"], ∃! p, p ∈ wipe.params.drop 1 ∧ wiping.Accepts p w.text := by
    intro w hw
    refine existsUnique_of_filter hrun ?_
    revert w
    decide +kernel
  have hdistinct : (unquoted ["sync", "7", "quiet"]).Pairwise fun v w =>
      ∀ p ∈ wipe.params.drop 1, wiping.Accepts p v.text → ¬ wiping.Accepts p w.text := by
    simp only [accepts_iff hrun]
    decide +kernel
  obtain ⟨es, -, -, hall⟩ := optionals_commute wiping hrun [] (unquoted ["3"]) (unquoted ["sync", "7", "quiet"])
    (wipe.params.take 1) (wipe.params.drop 1) hsingle (by decide) (by decide) (by decide) hdisk honly hdistinct nofun
  obtain ⟨hok, -, -, hperm⟩ := hall (unquoted ["7", "quiet", "sync"]) (.map _ (by decide))
  exact ⟨hok, hperm⟩

end Matching

end LineMatch
