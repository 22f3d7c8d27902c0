/-
  LineMatch.Proofs.Line.Resolving — which command a line names.

  A command may be named by the first `n` words of a line where none of them is quoted:
  put together with spaces they are compared with its name, but for case and for how wide
  the blanks are. Of the commands named so the one with the most words is meant, so longer
  beginnings are tried first.

  A look-up takes the last of several commands with one key. The check allows no two, by
  the key that is looked up, so the order of the commands does not matter.

  Proved:
  - `longest?_eq_some_iff`: the search finds the longest beginning that names a command.
  - `command?_perm`, `longest?_congr`: it finds the same in any order of the commands.
  - `resolves_longest`: the command of a line, whatever the order and whatever follows the
    first quoted word.
-/

import LineMatch.Line.Basic
import LineMatch.Proofs.Grammar.Checked

namespace LineMatch

variable {g g' : Grammar} {c : Command} {ts rest : List Token} {texts : List String} {name : String} {n : Nat}

/-- How many words stand before the first that is quoted. -/
def plainCount (ts : List Token) : Nat := (ts.takeWhile (!·.isQuoted)).length

/-- The first `n` words are the name of the command, but for case and blanks. -/
def Command.SpeltBy (c : Command) (ts : List Token) (n : Nat) : Prop :=
  c.key = nameKey (" ".intercalate ((ts.take n).map Token.text))

instance : Decidable (c.SpeltBy ts n) := inferInstanceAs (Decidable (_ = _))

theorem take_plainCount (ts : List Token) : ts.take (plainCount ts) = ts.takeWhile (!·.isQuoted) :=
  (List.prefix_iff_eq_take.1 (List.takeWhile_prefix _)).symm

theorem isQuoted_of_mem_takeWhile {t : Token} (h : t ∈ ts.takeWhile (!·.isQuoted)) : t.isQuoted = false := by
  have hall := List.all_eq_true.1 (List.all_takeWhile (p := (!·.isQuoted)) (l := ts)) t h
  simpa using hall

namespace Grammar

/-! ## The longest beginning -/

theorem longest?_eq_none_iff : g.longest? texts n = none ↔
    ∀ m, 0 < m → m ≤ n → g.command? (" ".intercalate (texts.take m)) = none := by
  induction n with
  | zero => exact ⟨fun _ m hpos hm => absurd hpos (Nat.not_lt.2 hm), fun _ => rfl⟩
  | succ n ih =>
    rw [longest?, Option.or_eq_none_iff, ih]
    constructor
    · rintro ⟨hlast, hall⟩ m hpos hm
      rcases Nat.le_succ_iff.1 hm with hm | rfl
      · exact hall m hpos hm
      · exact hlast
    · intro hall
      exact ⟨hall (n + 1) n.succ_pos (Nat.le_refl _), fun m hpos hm => hall m hpos (Nat.le_succ_of_le hm)⟩

/-- The search gives the command of the longest beginning that names one. -/
theorem longest?_eq_some_iff : g.longest? texts n = some c ↔
    ∃ k, 0 < k ∧ k ≤ n ∧ g.command? (" ".intercalate (texts.take k)) = some c ∧
      ∀ m, k < m → m ≤ n → g.command? (" ".intercalate (texts.take m)) = none := by
  induction n with
  | zero => exact ⟨nofun, fun ⟨k, hpos, hk, _⟩ => absurd hpos (Nat.not_lt.2 hk)⟩
  | succ n ih =>
    rw [longest?, Option.or_eq_some_iff, ih]
    constructor
    · rintro (hlast | ⟨hlast, k, hpos, hk, hc, hmore⟩)
      · exact ⟨n + 1, n.succ_pos, (Nat.le_refl _), hlast, fun m hlt hm => absurd hlt (Nat.not_lt.2 hm)⟩
      · refine ⟨k, hpos, Nat.le_succ_of_le hk, hc, fun m hlt hm => ?_⟩
        rcases Nat.le_succ_iff.1 hm with hm | rfl
        · exact hmore m hlt hm
        · exact hlast
    · rintro ⟨k, hpos, hk, hc, hmore⟩
      rcases Nat.le_succ_iff.1 hk with hk | rfl
      · exact .inr ⟨hmore (n + 1) (Nat.lt_succ_of_le hk) (Nat.le_refl _), k, hpos, hk, hc,
          fun m hlt hm => hmore m hlt (Nat.le_succ_of_le hm)⟩
      · exact .inl hc

theorem longest?_congr (h : ∀ name, g.command? name = g'.command? name) :
    g.longest? texts n = g'.longest? texts n := by
  induction n with
  | zero => rfl
  | succ n ih => rw [longest?, longest?, h, ih]

/-! ## The command of a line -/

theorem resolve?_eq : g.resolve? ts = g.longest? ((ts.takeWhile (!·.isQuoted)).map Token.text) (plainCount ts) := by
  rw [resolve?, List.length_map]
  rfl

theorem take_plain_texts {m : Nat} (h : m ≤ plainCount ts) :
    ((ts.takeWhile (!·.isQuoted)).map Token.text).take m = (ts.take m).map Token.text := by
  rw [← List.map_take, ← take_plainCount, List.take_take, Nat.min_eq_left h]

theorem resolve?_eq_none_iff : g.resolve? ts = none ↔
    ∀ n, 0 < n → n ≤ plainCount ts → g.command? (" ".intercalate ((ts.take n).map Token.text)) = none := by
  rw [resolve?_eq, longest?_eq_none_iff]
  refine forall₃_congr fun n _ hn => ?_
  rw [take_plain_texts hn]

theorem resolve?_eq_some_iff : g.resolve? ts = some c ↔
    ∃ n, 0 < n ∧ n ≤ plainCount ts ∧ g.command? (" ".intercalate ((ts.take n).map Token.text)) = some c ∧
      ∀ m, n < m → m ≤ plainCount ts → g.command? (" ".intercalate ((ts.take m).map Token.text)) = none := by
  rw [resolve?_eq, longest?_eq_some_iff]
  refine exists_congr fun n => and_congr_right fun _ => and_congr_right fun hn => ?_
  rw [take_plain_texts hn]
  refine and_congr_right fun _ => forall₃_congr fun m _ hm => ?_
  rw [take_plain_texts hm]

theorem mem_of_command? (h : g.command? name = some c) : c ∈ g.commands ∧ c.key = nameKey name := mem_of_last? h

theorem resolve?_mem (h : g.resolve? ts = some c) : c ∈ g.commands := by
  obtain ⟨n, -, -, hc, -⟩ := resolve?_eq_some_iff.1 h
  exact (mem_of_command? hc).1

/-! ## Checked grammars -/

theorem WellFormed.command?_eq_none_iff (h : g.WellFormed) :
    g.command? name = none ↔ ∀ d ∈ g.commands, d.key ≠ nameKey name := by
  rw [Option.eq_none_iff_forall_ne_some]
  constructor
  · intro hnone d hd hkey
    exact hnone d (h.command?_iff.2 ⟨hd, hkey⟩)
  · intro hall d hd
    obtain ⟨hmem, hkey⟩ := mem_of_command? hd
    exact hall d hmem hkey

/-- A look-up among distinct keys does not depend on the order. -/
theorem WellFormed.command?_perm (h : g.WellFormed) {cs : List Command} (hcs : cs.Perm g.commands) :
    command? { g with commands := cs } name = g.command? name := by
  have hkeys : (cs.map Command.key).Nodup := (hcs.map Command.key).nodup_iff.2 h.commands
  refine Option.ext fun c => ?_
  have hfound : command? { g with commands := cs } name = some c ↔ c ∈ cs ∧ c.key = nameKey name := last?_iff hkeys
  rw [hfound, h.command?_iff, hcs.mem_iff]

end Grammar

theorem takeWhile_take_append (h : ∀ t ∈ rest.head?, t.isQuoted = true) :
    (ts.take (plainCount ts) ++ rest).takeWhile (!·.isQuoted) = ts.takeWhile (!·.isQuoted) := by
  have hplain : ∀ t ∈ ts.takeWhile (!·.isQuoted), (!t.isQuoted) = true := by
    intro t ht
    rw [isQuoted_of_mem_takeWhile ht]
    rfl
  rw [take_plainCount, List.takeWhile_append_of_pos hplain]
  cases rest with
  | nil => rw [List.takeWhile_nil, List.append_nil]
  | cons t rest =>
    have hquoted : t.isQuoted = true := h t rfl
    rw [List.takeWhile_cons_of_neg (by simp [hquoted]), List.append_nil]

theorem plainCount_take_append (h : ∀ t ∈ rest.head?, t.isQuoted = true) :
    plainCount (ts.take (plainCount ts) ++ rest) = plainCount ts :=
  congrArg List.length (takeWhile_take_append h)

/-- In a grammar that passes the check a line names the command that is spelt by its first
    `n` words for the largest `n`, up to the first quoted word, for which there is one. It
    names none where there is none for any `n`. The order of the commands does not matter,
    and neither does what follows from the first quoted word on. -/
theorem resolves_longest (g : Grammar) (h : g.check = .ok ()) (ts : List Token) :
    (∀ c, g.resolve? ts = some c ↔ c ∈ g.commands ∧ ∃ n, 0 < n ∧ n ≤ plainCount ts ∧ c.SpeltBy ts n ∧
      ∀ m, n < m → m ≤ plainCount ts → ∀ d ∈ g.commands, ¬d.SpeltBy ts m) ∧
    (g.resolve? ts = none ↔ ∀ n, 0 < n → n ≤ plainCount ts → ∀ d ∈ g.commands, ¬d.SpeltBy ts n) ∧
    (∀ cs, cs.Perm g.commands → Grammar.resolve? { g with commands := cs } ts = g.resolve? ts) ∧
    ∀ rest, (∀ t ∈ rest.head?, t.isQuoted = true) → g.resolve? (ts.take (plainCount ts) ++ rest) = g.resolve? ts := by
  have hg := Grammar.wellFormed_of_check h
  refine ⟨fun c => ?_, ?_, fun cs hcs => ?_, fun rest hrest => ?_⟩
  · simp only [Grammar.resolve?_eq_some_iff, hg.command?_iff, hg.command?_eq_none_iff, Command.SpeltBy]
    constructor
    · rintro ⟨n, hpos, hn, ⟨hc, hkey⟩, hmore⟩
      exact ⟨hc, n, hpos, hn, hkey, hmore⟩
    · rintro ⟨hc, n, hpos, hn, hkey, hmore⟩
      exact ⟨n, hpos, hn, ⟨hc, hkey⟩, hmore⟩
  · simp only [Grammar.resolve?_eq_none_iff, hg.command?_eq_none_iff, Command.SpeltBy]
  · rw [Grammar.resolve?_eq, Grammar.resolve?_eq]
    exact Grammar.longest?_congr fun name => hg.command?_perm hcs
  · rw [Grammar.resolve?_eq, Grammar.resolve?_eq, takeWhile_take_append hrest, plainCount_take_append hrest]

/-! ## Names that begin alike -/

namespace Sample

/-- Three commands with names that begin alike, the longest in the middle. -/
def routes : Grammar := { commands := [{ name := "show" }, { name := "show ip route" }, { name := "Show  IP" }] }

end Sample

open Sample in
/-- `SHOW ip Route 10.0.0.0` names the command of three words, also where the commands are
    declared the other way round; and `show "ip" route` names what `show` does. -/
theorem routes_resolved : routes.check = .ok () ∧
    routes.resolve? (tokens "SHOW ip Route 10.0.0.0") = some { name := "show ip route" } ∧
    Grammar.resolve? { routes with commands := routes.commands.reverse } (tokens "SHOW ip Route 10.0.0.0") =
      routes.resolve? (tokens "SHOW ip Route 10.0.0.0") ∧
    routes.resolve? (tokens "show") = routes.resolve? (tokens "show \"ip\" route") := by
  have hcheck : routes.check = .ok () := by
    rfl
  obtain ⟨hsome, -, hperm, -⟩ := resolves_longest routes hcheck (tokens "SHOW ip Route 10.0.0.0")
  obtain ⟨-, -, -, hrest⟩ := resolves_longest routes hcheck (tokens "show \"ip\" route")
  refine ⟨hcheck, (hsome _).2 ⟨by simp [routes], 3, by decide, by decide +kernel, by decide +kernel, ?_⟩,
    hperm _ (List.reverse_perm _), ?_⟩
  · intro m hlt hm
    have hcount : plainCount (tokens "SHOW ip Route 10.0.0.0") = 4 := by
      decide +kernel
    obtain rfl : m = 4 := by omega
    decide +kernel
  · have htake : (tokens "show \"ip\" route").take (plainCount (tokens "show \"ip\" route")) ++ [] = tokens "show" := by
      decide +kernel
    rw [← hrest [] nofun, htake]

end LineMatch
