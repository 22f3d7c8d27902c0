/-
  LineMatch.Proofs.Grammar.Commented — grammars with comments.

  Comments are left out of a text, and only their line feeds stay. That is as good as a
  space, except inside a word: there the characters on both sides come together, and a
  number or a name is read that the text does not have.

  Proved:
  - `ofText_spaced`: a text gives a grammar with spaces for its comments if it gives that
    grammar without them and no comment joins what stands on its sides.
-/

import LineMatch.Proofs.Comments.Blanks
import LineMatch.Proofs.Grammar.Begins
import LineMatch.Proofs.Grammar.Reload

namespace LineMatch.Grammar

open Comments (IsSplit Joins Kind Piece spaced)
open Json (tight Clashes)

variable {t : String} {ps : List Piece} {g : Grammar}

theorem readText_ok_iff : readText t = .ok g ↔ Json.Read.whole read (Comments.strip t) = .ok g := by
  rw [readText]
  cases Json.Read.whole read (Comments.strip t) with
  | error =>
    constructor <;> intro h <;> cases h
  | ok =>
    constructor <;> intro h <;> cases h <;> rfl

/-- Spaces do not matter to a text in which comments join no words. -/
theorem readText_spaced (h : IsSplit t.toList ps) :
    readText (spaced ps) = .ok g ↔ readText t = .ok g ∧ ¬Joins ps := by
  have hkept : (Comments.strip t).toList = ps.flatMap Piece.kept := Comments.toList_strip h
  have hspaced : (spaced ps).toList = ps.flatMap Piece.spaced := String.toList_ofList
  have hbeside : Comments.Beside .apart .apart := .refl rfl
  have hclashes := (Comments.clashes_spaced h.fit hbeside).iff
  rw [readText_ok_iff, readText_ok_iff, Comments.strip_spaced h.fit]
  constructor
  · intro hread
    obtain ⟨hclash, hsame⟩ := (begins_read _).whole hread
    rw [hspaced] at hclash hsame
    refine ⟨hsame _ ?_, fun hjoins => hclash (hclashes.2 (.inr (.inl hjoins)))⟩
    rw [hkept, Comments.tight_spaced h.fit hbeside hclash]
  · rintro ⟨hread, hjoins⟩
    obtain ⟨hclash, hsame⟩ := (begins_read _).whole hread
    rw [hkept] at hclash hsame
    have hclash' : ¬Clashes .apart (ps.flatMap Piece.spaced) := by
      rw [hclashes]
      rintro (h | h | ⟨h, -⟩)
      · exact hclash h
      · exact hjoins h
      · cases h
    refine hsame _ ?_
    rw [hspaced, Comments.tight_spaced h.fit hbeside hclash']

/-- With a space and its line feeds in the place of each comment a text gives the grammar it
    gives with the comments, unless one of them stands inside a word: then it gives none. -/
theorem ofText_spaced (h : IsSplit t.toList ps) (g : Grammar) :
    ofText (spaced ps) = .ok g ↔ ofText t = .ok g ∧ ¬Joins ps := by
  rw [ofText_ok_iff, ofText_ok_iff, readText_spaced h]
  exact and_right_comm

namespace Commented

/-- A type with a bound, with comments before, behind and inside it. -/
def text : String := "/* N */[[\x7b\"name\":\"//\",\"method\":\"integer\",\"max\":/**/-1\x7d]]//"

def pieces : List Piece :=
  [.enclosed .block " N */".toList, .other '[', .other '[', .other '\x7b', .enclosed .string "name\"".toList,
   .other ':', .enclosed .string "//\"".toList, .other ',', .enclosed .string "method\"".toList, .other ':',
   .enclosed .string "integer\"".toList, .other ',', .enclosed .string "max\"".toList, .other ':',
   .enclosed .block "*/".toList, .other '-', .other '1', .other '\x7d', .other ']', .other ']', .enclosed .line []]

/-- A bound with a comment between its digits. -/
def joined : String :=
  "\x7b\"ptypes\":[\x7b\"name\":\"N\",\"method\":\"integer\",\"min\":1/**/2\x7d]\x7d"

def joinedPieces : List Piece :=
  [.other '\x7b', .enclosed .string "ptypes\"".toList, .other ':', .other '[', .other '\x7b',
   .enclosed .string "name\"".toList, .other ':', .enclosed .string "N\"".toList, .other ',',
   .enclosed .string "method\"".toList, .other ':', .enclosed .string "integer\"".toList, .other ',',
   .enclosed .string "min\"".toList, .other ':', .other '1', .enclosed .block "*/".toList, .other '2', .other '\x7d',
   .other ']', .other '\x7d']

end Commented

theorem commented_spaced : ∃ g, ofText (spaced Commented.pieces) = .ok g ∧
    g.types.map ValueType.method = [.integer none (some (-1))] ∧ ofText Commented.text = .ok g ∧
    ¬Joins Commented.pieces := by
  have hsplit : IsSplit Commented.text.toList Commented.pieces := by decide +kernel
  have h : (ofText (spaced Commented.pieces)).toOption.map (fun g => g.types.map ValueType.method) =
      some [.integer none (some (-1))] := by
    decide +kernel
  rcases hread : ofText (spaced Commented.pieces) with e | g
  · rw [hread] at h
    cases h
  · rw [hread] at h
    exact ⟨g, rfl, Option.some.inj h, (ofText_spaced hsplit g).1 hread⟩

/-- A comment between two digits is no space: the bound is read as twelve, and with the space
    there is no grammar. -/
theorem joined_differs : IsSplit Commented.joined.toList Commented.joinedPieces ∧
    (ofText Commented.joined).toOption.map (fun g => g.types.map ValueType.method) =
      some [.integer (some 12) none] ∧
    ∀ g, ofText (spaced Commented.joinedPieces) ≠ .ok g := by
  have hnone : (ofText (spaced Commented.joinedPieces)).toOption.isNone = true := by decide +kernel
  refine ⟨by decide +kernel, by decide +kernel, fun g hg => ?_⟩
  rw [hg] at hnone
  cases hnone

end LineMatch.Grammar
