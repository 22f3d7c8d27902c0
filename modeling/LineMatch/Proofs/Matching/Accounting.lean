/-
  LineMatch.Proofs.Matching.Accounting — where the words of an accepted line go.

  What a scan of a list takes is a list of branches: each a word taken for a parameter
  of the list, with the branches of the list nested in what took it. `takings` lists the
  words taken in the order of the tree, a node before what is nested in it. `scan` reads
  the branches off a run that ends well: by induction on the cost of the state, since
  the scan that goes on after a nested list starts at a state reached and not at the next.

  Proved:
  - `scan`: a list scanned to its end took the words of its branches, one after the
    other from the cursor on, each parameter once.
  - `Scans.takesAt_iff`: no other word was taken on the way.
  - `ok_accounts`: an accepted line's words are those taken and those left over, and its
    values are the inserts for them in that order.
-/

import LineMatch.Proofs.Matching.Reach
import LineMatch.Proofs.Store

namespace LineMatch.Matching

/-- What is inserted for a word taken: for a switch first the name of the alternative. -/
def Taken.inserts (x : Taken) : List (Param × String) :=
  if x.param.isSwitch then [(x.param, x.node.name), (x.node, x.value)] else [(x.node, x.value)]

theorem Taken.record_eq (s : Store) (x : Taken) : s.record x.param x.node x.value = s.insertAll x.inserts := by
  unfold Store.record Taken.inserts
  by_cases h : x.param.isSwitch = true
  · rw [if_pos h, if_pos h]
    rfl
  · rw [if_neg h, if_neg h]
    rfl

/-! ## Branches -/

/-- A word taken in a list, and what was taken then in the list nested in its node. -/
inductive Branch where
  | mk (taken : Taken) (nested : List Branch)

namespace Branch

def taken : Branch → Taken
  | mk x _ => x

def nested : Branch → List Branch
  | mk _ bs => bs

end Branch

mutual

/-- The words taken, a node before what is nested in it. -/
def Branch.takings : Branch → List Taken
  | .mk x bs => x :: takings bs

def takings : List Branch → List Taken
  | [] => []
  | b :: bs => b.takings ++ takings bs

end

/-- The branches grow on a list of parameters: each is for a parameter of the list, no two
    for parameters of one name, through a choice of it, with the branches of the list
    nested in that choice. -/
inductive Fits : List Param → List Branch → Prop
  | nil {ps : List Param} : Fits ps []
  | cons {ps : List Param} {x : Taken} {nested bs : List Branch} : x.param ∈ ps → x.node ∈ x.param.choices →
      Fits x.node.params nested → (∀ b ∈ bs, b.taken.param.name ≠ x.param.name) → Fits ps bs →
      Fits ps (.mk x nested :: bs)

namespace Setting

variable {m : Setting} {s t u : State} {f : Frame} {fs : List Frame} {p : Param} {ps : List Param}
  {bs ns : List Branch} {x : Taken} {i : Nat}

/-- The innermost list is scanned from `s` on and through at `t`, and its branches are
    `bs`: their words are taken from the cursor on, for parameters not recorded at `s`. -/
structure Scans (m : Setting) (s t : State) (ps : List Param) (bs : List Branch) : Prop where
  reach : m.Reach s t
  fits : Fits ps bs
  unrecorded : ∀ b ∈ bs, s.store.contains b.taken.param.name = false
  cursor : t.cursor = s.cursor + (takings bs).length
  store : t.store = s.store.insertAll ((takings bs).flatMap Taken.inserts)
  words : ∀ i x, (takings bs)[i]? = some x → m.TakesAt s (s.cursor + i) x

theorem Scans.nil (h : m.step s = .go t) (hc : t.cursor = s.cursor) (hs : t.store = s.store) :
    m.Scans s t ps [] where
  reach := .step (.refl s) h
  fits := .nil
  unrecorded := fun _ hb => by cases hb
  cursor := hc
  store := hs
  words := fun i x hx => by simp [takings] at hx

/-- A step that takes nothing puts nothing before the branches. -/
theorem Scans.of_step (h : m.step s = .go u) (hc : u.cursor = s.cursor) (hs : u.store = s.store)
    (hu : m.Scans u t ps bs) : m.Scans s t ps bs where
  reach := .head h hu.reach
  fits := hu.fits
  unrecorded := fun b hb => hs ▸ hu.unrecorded b hb
  cursor := hc ▸ hu.cursor
  store := hs ▸ hu.store
  words := fun i x hx => hc ▸ (hu.words i x hx).of_reach (.step (.refl s) h)

/-- The word under the cursor is taken, then come those of the nested list, and then those of
    this one. -/
theorem Scans.words_cons {v : State} {qs : List Param} (hx : m.Takes s x) (h : m.step s = .go u)
    (hcursor : u.cursor = s.cursor + 1) (hns : m.Scans u v qs ns) (hbs : m.Scans v t ps bs) (i : Nat) (y : Taken)
    (hy : (takings (.mk x ns :: bs))[i]? = some y) : m.TakesAt s (s.cursor + i) y := by
  have hsu : m.Reach s u := .step (.refl s) h
  simp only [takings, Branch.takings, List.cons_append] at hy
  rcases i with _ | i
  · cases hy
    exact ⟨s, .refl s, rfl, hx⟩
  rw [List.getElem?_cons_succ] at hy
  by_cases hi : i < (takings ns).length
  · rw [List.getElem?_append_left hi] at hy
    have htakes := (hns.words i y hy).of_reach hsu
    rwa [hcursor, Nat.add_right_comm] at htakes
  · rw [List.getElem?_append_right (Nat.le_of_not_lt hi)] at hy
    have htakes := (hbs.words _ y hy).of_reach (hsu.trans hns.reach)
    rwa [hns.cursor, hcursor, show s.cursor + 1 + (takings ns).length + (i - (takings ns).length) =
      s.cursor + (i + 1) by omega] at htakes

/-- A word taken, the scan of the list nested in what took it, and the scan that goes on. -/
theorem Scans.cons {v : State} (hx : m.Takes s x) (h : m.step s = .go u) (hp : x.param ∈ ps)
    (hcursor : u.cursor = s.cursor + 1) (hstore : u.store = s.store.record x.param x.node x.value)
    (hnode : x.node ∈ x.param.choices) (hnew : s.store.contains x.param.name = false)
    (hns : m.Scans u v x.node.params ns) (hbs : m.Scans v t ps bs) : m.Scans s t ps (.mk x ns :: bs) := by
  have hsv : m.Reach s v := .head h hns.reach
  have hrecorded : v.store.contains x.param.name = true := by
    refine hns.reach.store_grows ?_
    rw [hstore]
    exact contains_record hnode
  have hnames : ∀ b ∈ bs, b.taken.param.name ≠ x.param.name := by
    intro b hb he
    have hopen := hbs.unrecorded b hb
    rw [he, hrecorded] at hopen
    cases hopen
  refine ⟨hsv.trans hbs.reach, .cons hp hnode hns.fits hnames hbs.fits, ?_, ?_, ?_,
    Scans.words_cons hx h hcursor hns hbs⟩
  · intro b hb
    rcases List.mem_cons.1 hb with rfl | hb
    · exact hnew
    · exact hsv.unrecorded (hbs.unrecorded b hb)
  · rw [hbs.cursor, hns.cursor, hcursor]
    simp only [takings, Branch.takings, List.length_append, List.length_cons]
    omega
  · rw [hbs.store, hns.store, hstore, Taken.record_eq]
    simp only [takings, Branch.takings, List.flatMap_append, List.flatMap_cons, Store.insertAll_append]

/-- In a match that ends well the innermost list is scanned to its end. -/
theorem scan (htarget : m.target = none) (hok : (m.finish s).1 = .ok) (hf : s.frames = f :: fs) :
    ∃ t bs, m.Scans s t f.params bs ∧ t.frames = fs := by
  induction hn : s.cost using Nat.strongRecOn generalizing s f fs with
  | ind n ih =>
    subst hn
    rcases hstep : m.step s with u | ⟨status, u⟩
    · have hlt := step_cost hstep
      have hoku : (m.finish u).1 = .ok := by rw [← finish_of_go hstep]; exact hok
      cases move_go hstep with
      | leave hf' _ =>
        rw [hf] at hf'
        cases hf'
        exact ⟨_, [], .nil hstep rfl rfl, rfl⟩
      | skip hf' _ _ =>
        rw [hf] at hf'
        cases hf'
        obtain ⟨t, bs, hs, ht⟩ := ih _ hlt hoku rfl rfl
        exact ⟨t, bs, .of_step hstep rfl rfl hs, ht⟩
      | pass hv _ _ =>
        have hf' := hf.symm.trans hv.frames
        cases hf'
        obtain ⟨t, bs, hs, ht⟩ := ih _ hlt hoku rfl rfl
        exact ⟨t, bs, .of_step hstep rfl rfl hs, ht⟩
      | keep _ _ hk =>
        rw [keepsWord_of_no_target htarget] at hk
        cases hk
      | @take f' fs' p node value calls hv ht hk =>
        have hf' := hf.symm.trans hv.frames
        cases hf'
        obtain ⟨-, -, hnew, hnode, -⟩ := taker_spec ht
        obtain ⟨v, ns, hns, hvf⟩ := ih _ hlt hoku rfl rfl
        have hokv : (m.finish v).1 = .ok := by rw [← finish_eq_of_reach hns.reach]; exact hoku
        obtain ⟨t, bs, hbs, htf⟩ := ih v.cost (Nat.lt_of_le_of_lt hns.reach.cost_le hlt) hokv hvf rfl
        rw [Frame.take_params] at hbs
        exact ⟨t, _, .cons (x := ⟨p, node, value⟩) ⟨f, fs, calls, hv, ht, hk⟩ hstep
          (List.mem_of_getElem? hv.stands) rfl rfl hnode hnew hns hbs, htf⟩
    · rw [finish_of_stop hstep] at hok
      rw [frames_of_stop hstep (.inl hok)] at hf
      cases hf

/-- Where the last list is through, the words taken were those of its branches. -/
theorem Scans.takesAt_iff (h : m.Scans s t ps bs) (ht : t.frames = []) :
    m.TakesAt s (s.cursor + i) x ↔ (takings bs)[i]? = some x := by
  refine ⟨fun hx => ?_, h.words i x⟩
  obtain ⟨v, hv, hvi, htakes⟩ := hx
  have hstop := step_close (m := m) ht
  have hvt : v ≠ t := by
    rintro rfl
    obtain ⟨w, hw, -⟩ := htakes.step
    rw [hstop] at hw
    cases hw
  have hlt : v.cursor < t.cursor := by
    rcases hv.linear h.reach with hr | hr
    · exact (htakes.cursor_lt hr).resolve_left hvt
    · exact absurd (hr.eq_of_stop hstop).symm hvt
  have hi : i < (takings bs).length := by
    have := h.cursor
    omega
  have hy : (takings bs)[i]? = some (takings bs)[i] := List.getElem?_eq_getElem hi
  rw [hy, TakesAt.unique ⟨v, hv, hvi, htakes⟩ (h.words i _ hy)]

/-- A word taken was accepted as the value. -/
theorem TakesAt.accepts (h : m.TakesAt s i x) : ∃ token, m.words[i]? = some token ∧
    ∃ before, (x.node.accept? m.run m.scope token.text before).1 = some x.value := by
  obtain ⟨t, -, rfl, f, fs, calls, -, ht, -⟩ := h
  obtain ⟨token, htoken, -, -, -, hb⟩ := taker_spec ht
  exact ⟨token, htoken, hb⟩

/-- An accepted line is accounted for. There are branches on the parameters of the command
    such that the word at each place from the cursor on is taken as the tree says at that
    place, and no word otherwise; it is accepted as the value; the words past them, if any,
    are folded for the parameter that takes them; and the values are the inserts for all
    this in its order. -/
theorem ok_accounts (m : Setting) (cursor : Nat) (store : Store) (ts : List Token) (hrest : m.takesRest = true)
    (hcursor : cursor ≤ ts.length) (hok : ((m.plain ts).finish (start m.command.params cursor store)).1 = .ok) :
    let first := start m.command.params cursor store
    let last := ((m.plain ts).finish first).2
    last.cursor = ts.length ∧ ∃ bs, Fits m.command.params bs ∧
      (∀ i x, (m.plain ts).TakesAt first (cursor + i) x ↔ (takings bs)[i]? = some x) ∧
      (∀ i x, (takings bs)[i]? = some x → ∃ token, ts[cursor + i]? = some token ∧
        ∃ before, (x.node.accept? m.run m.scope token.text before).1 = some x.value) ∧
      ((cursor + (takings bs).length = ts.length ∧
          last.store = store.insertAll ((takings bs).flatMap Taken.inserts)) ∨
        (cursor + (takings bs).length < ts.length ∧ ∃ args, m.command.args = some args ∧
          last.store = store.insertAll ((takings bs).flatMap Taken.inserts ++
            [(args, fold (ts.drop (cursor + (takings bs).length)))]))) := by
  intro first last
  obtain ⟨t, bs, hs, ht⟩ := scan (m := m.plain ts) rfl hok rfl
  have hlast : (m.plain ts).finish first = (m.plain ts).close t :=
    (finish_eq_of_reach hs.reach).trans (finish_of_stop (step_close ht))
  have hcur : t.cursor = cursor + (takings bs).length := hs.cursor
  have hstore : t.store = store.insertAll ((takings bs).flatMap Taken.inserts) := hs.store
  have hle : t.cursor ≤ ts.length := hs.reach.cursor_le_length hcursor
  have hwords : ∀ i x, (m.plain ts).TakesAt first (cursor + i) x ↔ (takings bs)[i]? = some x :=
    fun i x => hs.takesAt_iff ht
  have haccepts : ∀ i x, (takings bs)[i]? = some x → ∃ token, ts[cursor + i]? = some token ∧
      ∃ before, (x.node.accept? m.run m.scope token.text before).1 = some x.value :=
    fun i x hx => TakesAt.accepts ((hwords i x).2 hx)
  have hclose : ((m.plain ts).close t).1 = .ok := hlast ▸ hok
  have hend : last = ((m.plain ts).close t).2 := congrArg Prod.snd hlast
  obtain ⟨hall, hrest'⟩ := close_of_ok (m := m.plain ts) hrest hle hclose
  refine ⟨hend ▸ hall, bs, hs.fits, hwords, haccepts, ?_⟩
  rw [hend, ← hcur]
  simp only [Store.insertAll_append, ← hstore]
  exact hrest'

open Matching.Sample in
/-- The words of `5 fast 3 x` are all behind at the end, and there is a tree for them. -/
theorem tune_accounts :
    ((tuning.plain (unquoted ["5", "fast", "3", "x"])).finish (start tune.params 0 .empty)).2.cursor = 4 ∧
      ∃ bs, Fits tune.params bs ∧ ∀ i x,
        (tuning.plain (unquoted ["5", "fast", "3", "x"])).TakesAt (start tune.params 0 .empty) (0 + i) x ↔
          (takings bs)[i]? = some x := by
  obtain ⟨hcursor, bs, hfits, hwords, -⟩ := ok_accounts tuning 0 .empty (unquoted ["5", "fast", "3", "x"]) rfl
    (by decide) (by decide +kernel)
  exact ⟨hcursor, bs, hfits, hwords⟩

end Setting

end LineMatch.Matching
