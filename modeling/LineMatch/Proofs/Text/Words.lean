/-
  LineMatch.Proofs.Text.Words — texts cut at blanks, and blanks in small letters.

  Proved:
  - `words_intercalate`: the words of texts joined by a space are the words of each.
  - `words_of_isWord`, `isWord_of_mem_words`: a text without a blank is its one word, and
    words are such texts; so words joined by a space can be told apart again
    (`intercalate_inj`).
  - `hasBlank_toLower`, `toLower_eq_empty`: small letters have a blank where the text has
    one: no blank has a counterpart or is one, which is checked on the tables.
-/

import LineMatch.Text.Blank
import LineMatch.Text.Case

namespace LineMatch.Text

/-! ## Cutting -/

section

variable {blank : Char → Bool} {as bs cs word : List Char} {c : Char}

theorem splitWords_append (h : blank c = true) : splitWords blank (as ++ c :: bs) =
    ((splitWords blank as).1, (splitWords blank as).2 ++ (splitWords blank bs).1 :: (splitWords blank bs).2) := by
  induction as with
  | nil => simp [splitWords, h]
  | cons a as ih =>
    simp only [List.cons_append, splitWords, ih]
    split <;> rfl

/-- A blank ends the words before it. -/
theorem wordsBy_append (h : blank c = true) :
    wordsBy blank (as ++ c :: bs) = wordsBy blank as ++ wordsBy blank bs := by
  simp only [wordsBy, splitWords_append h, ← List.cons_append, List.filter_append]

theorem splitWords_of_no_blank (h : cs.any blank = false) : splitWords blank cs = (cs, []) := by
  induction cs with
  | nil => rfl
  | cons c cs ih =>
    simp only [List.any_cons, Bool.or_eq_false_iff] at h
    simp [splitWords, h.1, ih h.2]

theorem splitWords_no_blank : (splitWords blank cs).1.any blank = false ∧
    ∀ word ∈ (splitWords blank cs).2, word.any blank = false := by
  induction cs with
  | nil => exact ⟨rfl, fun _ h => by cases h⟩
  | cons c cs ih =>
    simp only [splitWords]
    split
    · refine ⟨rfl, fun word h => ?_⟩
      rcases List.mem_cons.1 h with rfl | h
      · exact ih.1
      · exact ih.2 word h
    · next hc =>
      refine ⟨?_, ih.2⟩
      rw [List.any_cons, ih.1, Bool.or_false]
      exact Bool.eq_false_iff.2 hc

theorem mem_wordsBy (h : word ∈ wordsBy blank cs) : word ≠ [] ∧ word.any blank = false := by
  obtain ⟨hmem, hne⟩ := List.mem_filter.1 h
  refine ⟨by simpa using hne, ?_⟩
  rcases List.mem_cons.1 hmem with rfl | hmem
  · exact splitWords_no_blank.1
  · exact splitWords_no_blank.2 word hmem

end

/-! ## Words -/

def hasBlank (text : String) : Bool := text.toList.any isBlank

/-- A text that is one word. -/
def IsWord (text : String) : Prop := text ≠ "" ∧ hasBlank text = false

variable {text word : String}

theorem words_of_isWord (h : IsWord text) : words text = [text] := by
  have hne : text.toList ≠ [] := fun he => h.1 (String.toList_eq_nil_iff.1 he)
  simp [words, wordsBy, splitWords_of_no_blank h.2, hne]

theorem isWord_of_mem_words (h : word ∈ words text) : IsWord word := by
  obtain ⟨cs, hcs, rfl⟩ := List.mem_map.1 h
  obtain ⟨hne, hb⟩ := mem_wordsBy hcs
  refine ⟨fun he => hne ?_, ?_⟩
  · have := congrArg String.toList he
    simpa using this
  · simpa [hasBlank] using hb

theorem words_space (s t : String) : words (s ++ " " ++ t) = words s ++ words t := by
  have hlist : (s ++ " " ++ t).toList = s.toList ++ ' ' :: t.toList := by simp
  rw [words, hlist, wordsBy_append (show isBlank ' ' = true by decide), List.map_append]
  rfl

theorem words_intercalate (texts : List String) : words (" ".intercalate texts) = texts.flatMap words := by
  induction texts with
  | nil => simp [words, wordsBy, splitWords]
  | cons s texts ih =>
    rcases texts with _ | ⟨t, texts⟩
    · simp
    · rw [String.intercalate_cons_cons, words_space, ih]
      exact List.flatMap_cons.symm

theorem flatMap_words {ws : List String} (h : ∀ w ∈ ws, IsWord w) : ws.flatMap words = ws := by
  induction ws with
  | nil => rfl
  | cons w ws ih =>
    rw [List.flatMap_cons, words_of_isWord (h w List.mem_cons_self),
      ih fun v hv => h v (List.mem_cons_of_mem _ hv)]
    rfl

/-- Words joined by a space can be told apart. -/
theorem intercalate_inj {ws vs : List String} (hws : ∀ w ∈ ws, IsWord w) (hvs : ∀ v ∈ vs, IsWord v)
    (h : " ".intercalate ws = " ".intercalate vs) : ws = vs := by
  have := congrArg words h
  rwa [words_intercalate, words_intercalate, flatMap_words hws, flatMap_words hvs] at this

/-! ## Small letters -/

/-- The characters of `isBlank` as ranges. -/
def blankRanges : List (Nat × Nat) :=
  [(0x9, 0xD), (0x20, 0x20), (0x85, 0x85), (0xA0, 0xA0), (0x1680, 0x1680), (0x2000, 0x200A), (0x2028, 0x2029),
   (0x202F, 0x202F), (0x205F, 0x205F), (0x3000, 0x3000)]

theorem isBlank_eq (c : Char) : isBlank c = inRanges c.toNat blankRanges := by
  rw [Bool.eq_iff_iff]
  simp only [isBlank, inRanges, blankRanges, List.any_cons, List.any_nil, Bool.or_eq_true, Bool.and_eq_true,
    decide_eq_true_eq, beq_iff_eq, Bool.false_eq_true, or_false]
  omega

/-- No character from `lo` to `hi` is blank. -/
def missesBlanks (lo hi : Nat) : Bool := blankRanges.all fun r => hi < r.1 || r.2 < lo

theorem inRanges_of_missesBlanks {n lo hi : Nat} (h : missesBlanks lo hi = true) (hlo : lo ≤ n) (hhi : n ≤ hi) :
    inRanges n blankRanges = false := by
  refine List.any_eq_false.2 fun r hr => ?_
  have := List.all_eq_true.1 h r hr
  simp only [Bool.or_eq_true, decide_eq_true_eq, Bool.and_eq_true] at this ⊢
  omega

theorem isBlank_ofNat {n : Nat} (h : inRanges n blankRanges = false) : isBlank (Char.ofNat n) = false := by
  rw [isBlank_eq]
  by_cases hv : n.isValidChar
  · have hn : (Char.ofNat n).toNat = n := congrArg Char.toNat (dif_pos hv)
    rw [hn]
    exact h
  · have hn : (Char.ofNat n).toNat = 0 := congrArg Char.toNat (dif_neg hv)
    rw [hn]
    decide

/-- Neither the characters of the runs nor their small letters are blank. -/
theorem lower_missesBlanks : (CaseTable.lower.all fun r =>
    missesBlanks r.first r.last && missesBlanks r.target (r.target + (r.last - r.first))) = true := by
  decide +kernel

theorem lowerSeveral_missesBlanks : (CaseTable.lowerSeveral.all fun r =>
    !inRanges r.1 blankRanges && !r.2.isEmpty && r.2.all (!inRanges · blankRanges)) = true := by
  decide +kernel

theorem imageIn_eq_some {n m : Nat} {runs : List CaseTable.Run} (h : imageIn n runs = some m) :
    ∃ r ∈ runs, r.image n = some m := by
  induction runs with
  | nil => cases h
  | cons r runs ih =>
    rw [imageIn] at h
    split at h
    · cases h
    split at h
    · next k hk =>
      cases h
      exact ⟨r, List.mem_cons_self, hk⟩
    · obtain ⟨r', hr', hm⟩ := ih h
      exact ⟨r', List.mem_cons_of_mem _ hr', hm⟩

theorem lowerOne_no_blank {c d : Char} (h : lowerOne c = some d) : isBlank c = false ∧ isBlank d = false := by
  obtain ⟨m, hm, rfl⟩ := Option.map_eq_some_iff.1 h
  obtain ⟨r, hr, him⟩ := imageIn_eq_some hm
  have hmisses := List.all_eq_true.1 lower_missesBlanks r hr
  obtain ⟨hfrom, hto⟩ := Bool.and_eq_true_iff.1 hmisses
  unfold CaseTable.Run.image at him
  split at him
  · next hin =>
    cases him
    refine ⟨?_, isBlank_ofNat (inRanges_of_missesBlanks hto (by omega) (by omega))⟩
    rw [isBlank_eq]
    exact inRanges_of_missesBlanks hfrom hin.1 hin.2.1
  · cases him

/-- The small form of a character is blank where the character is. -/
theorem lower_blank (c : Char) : (lower c).any isBlank = isBlank c ∧ lower c ≠ [] := by
  unfold lower
  split
  · next d hd =>
    obtain ⟨hc, hd⟩ := lowerOne_no_blank hd
    simp [hc, hd]
  · split
    · next ns hns =>
      obtain ⟨before, after, htable, -⟩ := List.lookup_eq_some_iff.1 hns
      have hmem : (c.toNat, ns) ∈ CaseTable.lowerSeveral := by
        rw [htable]
        exact List.mem_append_right _ List.mem_cons_self
      have hmisses := List.all_eq_true.1 lowerSeveral_missesBlanks _ hmem
      simp only [Bool.and_eq_true, Bool.not_eq_true', List.isEmpty_eq_false_iff] at hmisses
      obtain ⟨⟨hc, hne⟩, hns⟩ := hmisses
      refine ⟨?_, by simpa using hne⟩
      rw [isBlank_eq, hc, List.any_map, List.any_eq_false]
      intro n hn
      have := List.all_eq_true.1 hns n hn
      simp [isBlank_ofNat (Bool.not_eq_true' _ ▸ this : inRanges n blankRanges = false)]
    · simp

theorem lowerFrom_blank (before cs : List Char) : (lowerFrom before cs).any isBlank = cs.any isBlank := by
  induction cs generalizing before with
  | nil => rfl
  | cons c cs ih =>
    rw [lowerFrom, List.any_append, List.any_cons, ih]
    congr 1
    split
    · next h =>
      subst h
      split <;> decide
    · exact (lower_blank c).1

theorem lowerFrom_eq_nil {before cs : List Char} : lowerFrom before cs = [] ↔ cs = [] := by
  cases cs with
  | nil => simp [lowerFrom]
  | cons c cs =>
    simp only [lowerFrom, List.append_eq_nil_iff, reduceCtorEq, iff_false, not_and]
    intro h
    split at h
    · cases h
    · exact absurd h (lower_blank c).2

theorem hasBlank_toLower (text : String) : hasBlank (toLower text) = hasBlank text := by
  simp [hasBlank, toLower, lowerFrom_blank]

theorem isWord_toLower : IsWord (toLower text) ↔ IsWord text := by
  rw [IsWord, IsWord, hasBlank_toLower]
  refine and_congr_left fun _ => not_congr ?_
  rw [← String.toList_eq_nil_iff, ← String.toList_eq_nil_iff, toLower, String.toList_ofList, lowerFrom_eq_nil]

end LineMatch.Text
