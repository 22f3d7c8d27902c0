/-
  LineMatch.Proofs.Text.Case — texts that are in one case already.

  A capital has no other capital, and a small letter no other small letter: what a case
  mapping gives, the mapping leaves as it is. This lies in the tables, and is checked on
  them (`IsSettled`): the code points that a table takes and those that it gives, each a
  number with a bit for every one of them, have no bit in common. The one mapping that looks
  around it is that of capital sigma, and no small form has one.

  Proved:
  - `Table.image_of_mem`: so it is for each mapping whose table passes.
  - `toUpper_toUpper`, `toLower_toLower`: mapping a text twice is mapping it once.
-/

import LineMatch.Proofs.Text.Words

namespace LineMatch.Text

open CaseTable (Run)

variable {c d : Char} {cs before : List Char} {m n : Nat}

/-! ## Sets of code points -/

/-- The numbers from some lists, a bit for each. -/
def bitsOf (nss : List (List Nat)) : Nat :=
  nss.foldr (fun ns s => ns.foldr (fun n s => 1 <<< n ||| s) 0 ||| s) 0

theorem testBit_bitsOf (nss : List (List Nat)) : (bitsOf nss).testBit n = true ↔ ∃ ns ∈ nss, n ∈ ns := by
  have hone (ns : List Nat) : (ns.foldr (fun n s => 1 <<< n ||| s) 0).testBit n = true ↔ n ∈ ns := by
    induction ns with
    | nil => simp
    | cons k ns ih =>
      rw [List.foldr_cons, Nat.testBit_or, Bool.or_eq_true, ih, List.mem_cons, Nat.one_shiftLeft,
        Nat.testBit_two_pow, decide_eq_true_eq]
      exact or_congr_left eq_comm
  induction nss with
  | nil => simp [bitsOf]
  | cons ns nss ih =>
    rw [bitsOf, List.foldr_cons, Nat.testBit_or, Bool.or_eq_true, hone]
    simp only [List.mem_cons, exists_eq_or_imp]
    exact or_congr_right ih

theorem disjoint_of_bitsOf {xss yss : List (List Nat)} (h : bitsOf xss &&& bitsOf yss = 0) (hx : ∃ ns ∈ xss, n ∈ ns)
    (hy : ∃ ns ∈ yss, n ∈ ns) : False := by
  have hbit : (bitsOf xss &&& bitsOf yss).testBit n = true := by
    rw [Nat.testBit_and, Bool.and_eq_true]
    exact ⟨(testBit_bitsOf xss).2 hx, (testBit_bitsOf yss).2 hy⟩
  rw [h, Nat.zero_testBit] at hbit
  cases hbit

/-! ## Tables -/

/-- The code points that a run takes, if it begins at `start`, or that it gives. -/
def along (r : Run) (start : Nat) : List Nat :=
  (List.range ((r.last - r.first) / r.stride + 1)).map (start + r.stride * ·)

theorem mem_along {r : Run} (h : r.image m = some n) : m ∈ along r r.first ∧ n ∈ along r r.target := by
  unfold Run.image at h
  split at h
  · next hin =>
    obtain ⟨hge, hle, hstride⟩ := hin
    have hsteps : r.stride * ((m - r.first) / r.stride) = m - r.first :=
      Nat.mul_div_cancel' (Nat.dvd_of_mod_eq_zero hstride)
    have hrange : (m - r.first) / r.stride ∈ List.range ((r.last - r.first) / r.stride + 1) := by
      rw [List.mem_range]
      exact Nat.lt_succ_of_le (Nat.div_le_div_right (by omega))
    obtain rfl := Option.some.inj h
    exact ⟨List.mem_map.2 ⟨_, hrange, by omega⟩, List.mem_map.2 ⟨_, hrange, by omega⟩⟩
  · cases h

/-- The rows of one case mapping: code points with one counterpart, in runs, and with several. -/
structure Table where
  runs : List Run
  several : List (Nat × List Nat)

namespace Table

variable {t : Table}

/-- What the mapping makes of a character. -/
def image (t : Table) (c : Char) : List Char :=
  match imageIn c.toNat t.runs with
  | some n => [Char.ofNat n]
  | none =>
    match t.several.lookup c.toNat with
    | some ns => ns.map Char.ofNat
    | none => [c]

/-- The code points that have a row. -/
def taken (t : Table) : List (List Nat) := t.several.map (·.1) :: t.runs.map fun r => along r r.first

/-- The code points that the rows give, and zero, which stands for numbers that are none. -/
def given (t : Table) : List (List Nat) := [0] :: (t.several.map (·.2) ++ t.runs.map fun r => along r r.target)

/-- No row takes what a row gives. -/
def IsSettled (t : Table) : Prop := bitsOf t.taken &&& bitsOf t.given = 0

instance : Decidable t.IsSettled := inferInstanceAs (Decidable (_ = 0))

theorem mem_of_imageIn (h : imageIn m t.runs = some n) : (∃ ns ∈ t.taken, m ∈ ns) ∧ ∃ ns ∈ t.given, n ∈ ns := by
  obtain ⟨r, hr, himage⟩ := imageIn_eq_some h
  obtain ⟨hm, hn⟩ := mem_along himage
  refine ⟨⟨_, List.mem_cons_of_mem _ (List.mem_map_of_mem hr), hm⟩, _, List.mem_cons_of_mem _ ?_, hn⟩
  exact List.mem_append_right _ (List.mem_map_of_mem hr)

theorem mem_of_lookup {ns : List Nat} (h : t.several.lookup m = some ns) :
    (∃ ns ∈ t.taken, m ∈ ns) ∧ ns ∈ t.given := by
  obtain ⟨before, after, hrows, -⟩ := List.lookup_eq_some_iff.1 h
  have hrow : (m, ns) ∈ t.several := by
    rw [hrows]
    exact List.mem_append_right _ List.mem_cons_self
  refine ⟨⟨_, List.mem_cons_self, List.mem_map_of_mem hrow⟩, List.mem_cons_of_mem _ ?_⟩
  exact List.mem_append_left _ (List.mem_map_of_mem hrow)

/-- A character without a row is its own image. -/
theorem image_of_not_taken (h : ¬∃ ns ∈ t.taken, c.toNat ∈ ns) : t.image c = [c] := by
  unfold image
  cases hrun : imageIn c.toNat t.runs with
  | some n => exact absurd (mem_of_imageIn hrun).1 h
  | none =>
    cases hlookup : t.several.lookup c.toNat with
    | some ns => exact absurd (mem_of_lookup hlookup).1 h
    | none => rfl

/-- A number that is no code point stands for the character zero, which has no row either. -/
theorem image_ofNat (h : t.IsSettled) (hn : ∃ ns ∈ t.given, n ∈ ns) : t.image (Char.ofNat n) = [Char.ofNat n] := by
  refine image_of_not_taken fun htaken => disjoint_of_bitsOf h htaken ?_
  by_cases hvalid : n.isValidChar
  · rwa [show (Char.ofNat n).toNat = n from congrArg Char.toNat (dif_pos hvalid)]
  · rw [show (Char.ofNat n).toNat = 0 from congrArg Char.toNat (dif_neg hvalid)]
    exact ⟨[0], List.mem_cons_self, List.mem_cons_self⟩

/-- What a settled mapping gives, it leaves as it is. -/
theorem image_of_mem (h : t.IsSettled) (hd : d ∈ t.image c) : t.image d = [d] := by
  rw [image] at hd
  cases hrun : imageIn c.toNat t.runs with
  | some n =>
    rw [hrun] at hd
    obtain rfl := List.mem_singleton.1 hd
    exact image_ofNat h (mem_of_imageIn hrun).2
  | none =>
    rw [hrun] at hd
    dsimp only at hd
    cases hlookup : t.several.lookup c.toNat with
    | some ns =>
      rw [hlookup] at hd
      obtain ⟨n, hn, rfl⟩ := List.mem_map.1 hd
      exact image_ofNat h ⟨ns, (mem_of_lookup hlookup).2, hn⟩
    | none =>
      rw [hlookup] at hd
      obtain rfl := List.mem_singleton.1 hd
      rw [image, hrun]
      dsimp only
      rw [hlookup]

end Table

/-! ## Capitals -/

def capitals : Table where
  runs := CaseTable.upper
  several := CaseTable.upperSeveral

theorem upper_eq (c : Char) : upper c = capitals.image c := by
  unfold upper upperOne Table.image capitals
  cases imageIn c.toNat CaseTable.upper <;> rfl

theorem capitals_settled : capitals.IsSettled := by
  decide +kernel

theorem upper_of_mem (h : d ∈ upper c) : upper d = [d] := by
  rw [upper_eq] at h ⊢
  exact Table.image_of_mem capitals_settled h

theorem flatMap_upper_of_capital (h : ∀ c ∈ cs, upper c = [c]) : cs.flatMap upper = cs := by
  induction cs with
  | nil => rfl
  | cons c cs ih =>
    rw [List.forall_mem_cons] at h
    rw [List.flatMap_cons, h.1, ih h.2]
    rfl

/-- A text in capitals is all capitals already. -/
theorem toUpper_toUpper (text : String) : toUpper (toUpper text) = toUpper text := by
  have hcapital : ∀ d ∈ text.toList.flatMap upper, upper d = [d] := by
    intro d hd
    obtain ⟨c, -, hd⟩ := List.mem_flatMap.1 hd
    exact upper_of_mem hd
  rw [toUpper, toUpper, String.toList_ofList, flatMap_upper_of_capital hcapital]

/-! ## Small letters -/

def smallLetters : Table where
  runs := CaseTable.lower
  several := CaseTable.lowerSeveral

theorem lower_eq (c : Char) : lower c = smallLetters.image c := by
  unfold lower lowerOne Table.image smallLetters
  cases imageIn c.toNat CaseTable.lower <;> rfl

theorem smallLetters_settled : smallLetters.IsSettled := by
  decide +kernel

theorem lower_of_mem (h : d ∈ lower c) : lower d = [d] := by
  rw [lower_eq] at h ⊢
  exact Table.image_of_mem smallLetters_settled h

/-- Characters that are their own small forms stay, wherever they stand: capital sigma, for
    which it matters, is none of them. -/
theorem lowerFrom_of_small (h : ∀ c ∈ cs, lower c = [c]) : lowerFrom before cs = cs := by
  induction cs generalizing before with
  | nil => rfl
  | cons c cs ih =>
    rw [List.forall_mem_cons] at h
    have hsigma : c ≠ 'Σ' := by
      rintro rfl
      exact absurd h.1 (by decide)
    rw [lowerFrom, if_neg hsigma, h.1, ih h.2]
    rfl

theorem lower_of_mem_lowerFrom (h : d ∈ lowerFrom before cs) : lower d = [d] := by
  induction cs generalizing before with
  | nil => cases h
  | cons c cs ih =>
    rw [lowerFrom] at h
    rcases List.mem_append.1 h with h | h
    · split at h
      · obtain rfl := List.mem_singleton.1 h
        split <;> decide
      · exact lower_of_mem h
    · exact ih h

/-- A text in small letters is all small letters already. -/
theorem toLower_toLower (text : String) : toLower (toLower text) = toLower text := by
  rw [toLower, toLower, String.toList_ofList, lowerFrom_of_small fun d => lower_of_mem_lowerFrom]

end LineMatch.Text
