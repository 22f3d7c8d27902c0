/-
  LineMatch.Proofs.Keyword — the order of abbreviations.

  The small forms of a keyword are given out one at a time, as far as the word goes,
  which may end in the midst of one character's forms. What is still to come is a list at
  any time (`Forms.toList`), and what comes next is the first of it, whichever character
  it belongs to (`Forms.toList_eq`). So only the small forms of the two texts count, and
  standing for a keyword is the order of prefixes on them.

  Proved:
  - `Forms.isSome_takes_iff`: forms are taken one after the other exactly if what is to
    come begins with them.
  - `begins_iff`: a word begins a keyword exactly if its small forms begin the keyword's.
  - `begins_order`: this is reflexive and transitive, holds for the empty word, goes down
    to the prefixes of a word, and depends on nothing but small forms.
  - `Param.admits_shorter`: so a parameter that may stand for a word could stand for it
    while it was typed.
-/

import LineMatch.Session.Validation
import Mathlib.Data.List.Infix

namespace LineMatch

namespace Keyword

variable {keyword word typed : String} {cs ds : List Char}

theorem lowered_cons (c : Char) (cs : List Char) : lowered (c :: cs) = Text.lower c ++ lowered cs :=
  List.flatMap_cons

/-! ## Small forms one at a time -/

namespace Forms

variable {f : Forms}

/-- The small forms that are still to come. -/
def toList (f : Forms) : List Char := f.ready ++ lowered f.chars

theorem toList_nextFrom (ds cs : List Char) :
    (nextFrom ds cs).elim [] (fun next => next.1 :: next.2.toList) = ds ++ lowered cs := by
  -- the forms of the next character become those that are ready, so these vary
  induction cs generalizing ds with
  | nil => cases ds <;> rfl
  | cons c cs ih =>
    cases ds with
    | cons d ds => rfl
    | nil => rw [nextFrom, ih, List.nil_append, lowered_cons]

/-- What is still to come is what comes next and what comes behind it. -/
theorem toList_eq (f : Forms) : f.toList = f.next?.elim [] fun next => next.1 :: next.2.toList :=
  (toList_nextFrom f.ready f.chars).symm

/-- Forms are taken one after the other exactly if what is to come begins with them. -/
theorem isSome_takes_iff : (ds.foldlM take? f).isSome = true ↔ ds <+: f.toList := by
  induction ds generalizing f with
  | nil => exact ⟨fun _ => List.nil_prefix, fun _ => rfl⟩
  | cons d ds ih =>
    rw [List.foldlM_cons, toList_eq, take?]
    cases f.next? with
    | none => simp
    | some next =>
      obtain ⟨c, rest⟩ := next
      by_cases hc : c = d
      · subst hc
        simpa using ih
      · simp [hc, Ne.symm hc]

end Forms

/-! ## Prefixes -/

/-- A word begins a keyword exactly if its small forms begin the keyword's. -/
theorem begins_iff : begins keyword word = true ↔ lowered word.toList <+: lowered keyword.toList :=
  Forms.isSome_takes_iff

theorem lowered_mono (h : cs <+: ds) : lowered cs <+: lowered ds := h.flatMap Text.lower

theorem begins_shorter (h : typed.toList <+: word.toList) (hword : begins keyword word = true) :
    begins keyword typed = true :=
  begins_iff.2 ((lowered_mono h).trans (begins_iff.1 hword))

/-- Standing for a keyword is the order of prefixes on small forms, each character's own
    written one after the other. So every text begins itself, a beginning of a beginning
    is one, the empty word begins every keyword, with a word all its prefixes begin what
    it begins, and texts with the same small forms are the same to it on either side. -/
theorem begins_order :
    (∀ keyword word, begins keyword word = true ↔
      word.toList.flatMap Text.lower <+: keyword.toList.flatMap Text.lower) ∧
    (∀ text, begins text text = true) ∧
    (∀ a b c, begins a b = true → begins b c = true → begins a c = true) ∧
    (∀ keyword, begins keyword "" = true) ∧
    (∀ keyword word typed, typed.toList <+: word.toList → begins keyword word = true →
      begins keyword typed = true) ∧
    ∀ keyword keyword' word word', lowered keyword.toList = lowered keyword'.toList →
      lowered word.toList = lowered word'.toList → begins keyword word = begins keyword' word' := by
  refine ⟨fun _ _ => begins_iff, fun _ => begins_iff.2 (List.prefix_refl _), ?_, ?_, ?_, ?_⟩
  · intro a b c hab hbc
    exact begins_iff.2 ((begins_iff.1 hbc).trans (begins_iff.1 hab))
  · intro keyword
    exact begins_iff.2 List.nil_prefix
  · intro keyword word typed h hword
    exact begins_shorter h hword
  · intro keyword keyword' word word' hkeyword hword
    rw [Bool.eq_iff_iff, begins_iff, begins_iff, hkeyword, hword]

/-- A capital with two small forms, of which a word may have the first alone. -/
theorem dotted_order :
    (begins "\u0130stanbul" "i\u0307ST" = true ∧ begins "i\u0307ST" "\u0130s" = true ∧
        begins "\u0130stanbul" "\u0130s" = true) ∧
      ("i".toList <+: "i\u0307ST".toList ∧ begins "\u0130stanbul" "i" = true) ∧
      lowered "\u0130S".toList = lowered "i\u0307s".toList ∧ begins "\u0130S" "I" = begins "i\u0307s" "I" := by
  obtain ⟨hiff, -, htrans, -, hshorter, hsame⟩ := begins_order
  have hlong : begins "\u0130stanbul" "i\u0307ST" = true := (hiff _ _).2 (by decide)
  have hshort : begins "i\u0307ST" "\u0130s" = true := (hiff _ _).2 (by decide)
  have htyped : "i".toList <+: "i\u0307ST".toList := by decide
  have hforms : lowered "\u0130S".toList = lowered "i\u0307s".toList := by decide
  exact ⟨⟨hlong, hshort, htrans _ _ _ hlong hshort⟩, ⟨htyped, hshorter _ _ _ htyped hlong⟩, hforms,
    hsame _ _ _ _ hforms rfl⟩

end Keyword

/-- A parameter that may stand for a word could stand for it while it was typed. -/
theorem Param.admits_shorter {p : Param} {word typed : String} (h : typed.toList <+: word.toList)
    (hword : p.admits word = true) : p.admits typed = true := by
  unfold admits at hword ⊢
  cases hkeyword : p.keyword? with
  | none => rfl
  | some keyword =>
    rw [hkeyword] at hword
    exact Keyword.begins_shorter h hword

end LineMatch
