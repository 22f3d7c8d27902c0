/-
  LineMatch.Proofs.Line.Name — which words of a line are the command's name.

  A line is cut at ASCII blanks, a name at White_Space, and a command is looked up by the
  words of a line joined by spaces. So one word of a line can spell several of a name, or
  none: where a word has a no-break space in it, say. `c.NamedBy ts` says that the words
  are those of the name one for one.

  Proved:
  - `Grammar.resolve?_spec`: the name of the command found has the words that the first
    words of the line spell together.
  - `namedBy_iff`: they are its words one for one where as many words of the line have no
    blank in them, and only there.
  - `named_line`: then the match starts right after the name and leaves no word out.
-/

import LineMatch.Proofs.Line.Resolving
import LineMatch.Proofs.Matching.Reach
import LineMatch.Proofs.Text.Words
import LineMatch.Proofs.Token.Folding

namespace LineMatch

open LineMatch.Matching
open LineMatch.Matching.Setting (start)
open LineMatch.Text (IsWord hasBlank words toLower)

variable {g : Grammar} {c : Command} {ts : List Token} {line : String}

/-- The first words of `ts`, unquoted, are those of the command's name but for case. -/
structure Command.NamedBy (c : Command) (ts : List Token) : Prop where
  count : c.wordCount ≤ ts.length
  unquoted : ∀ t ∈ ts.take c.wordCount, t.isQuoted = false
  texts : (ts.take c.wordCount).map (fun t => toLower t.text) = c.words.map toLower

/-! ## The command found -/

theorem nameKey_inj {a b : String} (h : nameKey a = nameKey b) : (words a).map toLower = (words b).map toLower := by
  have hwords : ∀ name, ∀ w ∈ (words name).map toLower, IsWord w := by
    intro name w hw
    obtain ⟨v, hv, rfl⟩ := List.mem_map.1 hw
    exact Text.isWord_toLower.2 (Text.isWord_of_mem_words hv)
  exact Text.intercalate_inj (hwords a) (hwords b) h

namespace Grammar

/-- The command found has the name that some first words spell together, all unquoted. -/
theorem resolve?_spec (h : g.resolve? ts = some c) :
    ∃ k ≤ ts.length, (∀ t ∈ ts.take k, t.isQuoted = false) ∧
      c.words.map toLower = (((ts.take k).map Token.text).flatMap words).map toLower := by
  obtain ⟨k, -, hk, hc, -⟩ := resolve?_eq_some_iff.1 h
  refine ⟨k, Nat.le_trans hk (List.takeWhile_prefix _).length_le, fun t ht => ?_, ?_⟩
  · have hplain : ts.take k <+: ts.takeWhile (!·.isQuoted) := by
      rw [← take_plainCount]
      exact List.take_prefix_take_left hk
    exact isQuoted_of_mem_takeWhile (hplain.subset ht)
  · have hkey := nameKey_inj (mem_of_command? hc).2
    rwa [Text.words_intercalate] at hkey

end Grammar

/-! ## Words for words -/

/-- Texts whose first, as many as they have words, are words: those are their words. -/
theorem flatMap_words_eq_take {xs : List String} (h : ∀ x ∈ xs.take (xs.flatMap words).length, IsWord x) :
    xs.flatMap words = xs.take (xs.flatMap words).length := by
  induction xs with
  | nil => rfl
  | cons x xs ih =>
    rcases hn : ((x :: xs).flatMap words).length with _ | n
    · exact List.eq_nil_of_length_eq_zero hn
    rw [hn, List.take_succ_cons] at h
    have hx : words x = [x] := Text.words_of_isWord (h x List.mem_cons_self)
    have hn' : (xs.flatMap words).length = n := by
      rw [List.flatMap_cons, hx] at hn
      exact Nat.succ.inj hn
    have hxs : xs.flatMap words = xs.take n := by
      rw [← hn']
      exact ih fun y hy => h y (List.mem_cons_of_mem _ (hn' ▸ hy))
    rw [List.flatMap_cons, hx, List.take_succ_cons, ← hxs]
    rfl

theorem namedBy_iff (h : g.resolve? (tokens line) = some c) :
    c.NamedBy (tokens line) ↔ ∀ t ∈ (tokens line).take c.wordCount, hasBlank t.text = false := by
  constructor
  · intro hnamed t ht
    have hmem : toLower t.text ∈ c.words.map toLower := by
      rw [← hnamed.texts]
      exact List.mem_map_of_mem ht
    obtain ⟨w, hw, heq⟩ := List.mem_map.1 hmem
    rw [← Text.hasBlank_toLower, ← heq, Text.hasBlank_toLower]
    exact (Text.isWord_of_mem_words hw).2
  · intro hblank
    obtain ⟨k, hk, hunquoted, hwords⟩ := Grammar.resolve?_spec h
    have hcount : c.wordCount = ((((tokens line).take k).map Token.text).flatMap words).length := by
      have := congrArg List.length hwords
      rwa [List.length_map, List.length_map] at this
    have htexts : (((tokens line).take k).map Token.text).flatMap words =
        (((tokens line).take k).map Token.text).take c.wordCount := by
      rw [hcount]
      refine flatMap_words_eq_take fun x hx => ?_
      rw [← hcount, ← List.map_take] at hx
      obtain ⟨t, ht, rfl⟩ := List.mem_map.1 hx
      have htk : t ∈ (tokens line).take k := List.mem_of_mem_take ht
      rw [List.take_take, Nat.min_comm, ← List.take_take] at ht
      have hne : t.text ≠ "" := (Token.fits_of_mem (List.mem_of_mem_take htk) (hunquoted t htk)).1
      exact ⟨hne, hblank t (List.mem_of_mem_take ht)⟩
    have hle : c.wordCount ≤ k := by
      have hlen := congrArg List.length htexts
      rw [← hcount, List.length_take, List.length_map, List.length_take] at hlen
      omega
    rw [← List.map_take, List.take_take, Nat.min_eq_left hle] at htexts
    refine ⟨Nat.le_trans hle hk, fun t ht => hunquoted t ?_, ?_⟩
    · rw [← Nat.min_eq_left hle, ← List.take_take] at ht
      exact List.mem_of_mem_take ht
    · rw [hwords, htexts, List.map_map]
      rfl

/-! ## The match after the name -/

theorem Session.parse_eq (s : Session) (run : Executor) (h : s.grammar.resolve? (tokens line) = some c) :
    (s.parse run line).1 = ⟨(s.setting run c (tokens line) none).result.1, some c,
      if (s.setting run c (tokens line) none).result.1 = .ok then
        some (s.setting run c (tokens line) none).result.2.store else none⟩ := by
  simp only [Session.parse, h]

/-- The words of a line that names a command begin with the words of the name, one for
    one, where as many of them have no blank in them, and only there. Then the match
    starts right after the name: it takes each word that it leaves behind, never goes past
    the last, and on an accepted line the words that are left over are folded. -/
theorem named_line (s : Session) (run : Executor) (line : String) (c : Command)
    (h : s.grammar.resolve? (tokens line) = some c) :
    let ts := tokens line
    let m := s.setting run c ts none
    let first := start c.params c.wordCount .empty
    (c.NamedBy ts ↔ ∀ t ∈ ts.take c.wordCount, hasBlank t.text = false) ∧
      (c.NamedBy ts →
        (s.parse run line).1.status = (m.finish first).1 ∧
        (∀ t, m.Reach first t → c.wordCount ≤ t.cursor ∧ t.cursor ≤ ts.length ∧
          ∀ i, c.wordCount ≤ i → i < t.cursor → ∃ x, m.TakesAt first i x) ∧
        (m.finish first).2.cursor ≤ ts.length ∧
        ((m.finish first).1 = .ok → (m.finish first).2.cursor = ts.length ∧
          ∃ t, m.Reach first t ∧ (t.cursor = ts.length ∨ ∃ args, c.args = some args ∧
            (m.finish first).2.store = t.store.insert args (fold (ts.drop t.cursor))))) := by
  intro ts m first
  refine ⟨namedBy_iff h, fun hnamed => ?_⟩
  have hstart : first.cursor ≤ m.words.length := hnamed.count
  have hstatus : (s.parse run line).1.status = (m.finish first).1 := by
    rw [s.parse_eq run h]
    rfl
  refine ⟨hstatus, fun t hr => ⟨hr.cursor_le, hr.cursor_le_length hstart, fun i => hr.takesAt⟩,
    Setting.finish_cursor_le_length hstart, fun hok => ?_⟩
  obtain ⟨t, hr, -, hclose⟩ := Setting.exists_close (.inl hok)
  rw [hclose] at hok ⊢
  obtain ⟨hcursor, hrest⟩ := Setting.close_of_ok (m := m) rfl (hr.cursor_le_length hstart) hok
  refine ⟨hcursor, t, hr, ?_⟩
  rcases hrest with ⟨heq, -⟩ | ⟨-, args, hargs, hstore⟩
  · exact .inl heq
  · exact .inr ⟨args, hargs, hstore⟩

/-! ## A name of two words -/

instance (c : Command) (ts : List Token) : Decidable (c.NamedBy ts) :=
  decidable_of_iff (c.wordCount ≤ ts.length ∧ (∀ t ∈ ts.take c.wordCount, t.isQuoted = false) ∧
      (ts.take c.wordCount).map (fun t => toLower t.text) = c.words.map toLower)
    ⟨fun h => ⟨h.1, h.2.1, h.2.2⟩, fun h => ⟨h.count, h.unquoted, h.texts⟩⟩

namespace Matching.Sample

def showing : Session := { grammar := { commands := [{ name := "show ip" }] } }

end Matching.Sample

open Matching.Sample in
theorem show_ip_named : ∃ c, showing.grammar.resolve? (tokens "Show  IP") = some c ∧
    c.NamedBy (tokens "Show  IP") ∧ ((showing.setting never c (tokens "Show  IP") none).finish
      (start c.params c.wordCount .empty)).2.cursor ≤ (tokens "Show  IP").length := by
  have hsome : (showing.grammar.resolve? (tokens "Show  IP")).isSome = true := by decide +kernel
  obtain ⟨c, hc⟩ := Option.isSome_iff_exists.1 hsome
  have hblank : ∀ t ∈ tokens "Show  IP", hasBlank t.text = false := by decide +kernel
  obtain ⟨hiff, hmatch⟩ := named_line showing never "Show  IP" c hc
  have hnamed := hiff.2 fun t ht => hblank t (List.mem_of_mem_take ht)
  exact ⟨c, hc, hnamed, (hmatch hnamed).2.2.1⟩

open Matching.Sample in
/-- A no-break space keeps the two words of the name in one of the line. The command is
    found, its name is no two words of the line, and `x` counts as part of it. -/
theorem show_ip_not_named : ∃ c, showing.grammar.resolve? (tokens "show\u00a0ip x") = some c ∧
    ¬ c.NamedBy (tokens "show\u00a0ip x") ∧ (showing.parse never "show\u00a0ip x").1.status = .ok := by
  have hany : (showing.grammar.resolve? (tokens "show\u00a0ip x")).any
      (fun c => !decide (c.NamedBy (tokens "show\u00a0ip x"))) = true := by decide +kernel
  obtain ⟨c, hc, hnot⟩ := (Option.any_eq_true _ _).1 hany
  exact ⟨c, hc, by simpa using hnot, by decide +kernel⟩

end LineMatch
