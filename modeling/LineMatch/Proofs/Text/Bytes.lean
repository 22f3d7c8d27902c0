/-
  LineMatch.Proofs.Text.Bytes — the places among the bytes of a text.

  A text put together of parts has a place behind each of them, at the bytes of the parts
  before. `size` counts the bytes, and a place is one of `String.Pos.Raw`.

  Proved:
  - `size_toList`: `size` is the size of the string in UTF-8.
  - `isValid_of_append`, `exists_append_of_isValid`: the valid places are those behind a part.
  - `get?_of_append`, `extract_of_append`: what stands at such a place, and between two.
-/

import LineMatch.Text.Utf8
import Mathlib.Data.String.Basic

namespace LineMatch.Text

variable {line : String} {as bs cs : List Char}

/-! ## Counting -/

theorem width_eq_utf8Size (c : Char) : width c = c.utf8Size := by
  have h7 : c.val ≤ 0x7F ↔ c.toNat < 0x80 := by
    rw [UInt32.le_iff_toNat_le]
    exact Nat.lt_succ_iff.symm
  have h11 : c.val ≤ 0x7FF ↔ c.toNat < 0x800 := by
    rw [UInt32.le_iff_toNat_le]
    exact Nat.lt_succ_iff.symm
  have h16 : c.val ≤ 0xFFFF ↔ c.toNat < 0x10000 := by
    rw [UInt32.le_iff_toNat_le]
    exact Nat.lt_succ_iff.symm
  unfold width Char.utf8Size
  simp only [← h7, ← h11, ← h16]
  rfl

theorem width_pos (c : Char) : 0 < width c := by
  rw [width_eq_utf8Size]
  exact c.utf8Size_pos

theorem size_cons (c : Char) (cs : List Char) : size (c :: cs) = width c + size cs := rfl

theorem size_append (as bs : List Char) : size (as ++ bs) = size as + size bs := by
  induction as with
  | nil => simp [size]
  | cons a as ih => rw [List.cons_append, size_cons, ih, size_cons, Nat.add_assoc]

theorem size_pos (h : cs ≠ []) : 0 < size cs := by
  cases cs with
  | nil => exact absurd rfl h
  | cons c cs =>
    have := width_pos c
    rw [size_cons]
    omega

theorem size_eq_utf8Len (cs : List Char) : size cs = String.utf8Len cs := by
  induction cs with
  | nil => rfl
  | cons c cs ih => rw [size_cons, ih, width_eq_utf8Size, String.utf8Len_cons, Nat.add_comm]

theorem size_toList (line : String) : size line.toList = line.utf8ByteSize := by
  rw [size_eq_utf8Len, ← String.utf8ByteSize_ofList, String.ofList_toList]

/-! ## Places -/

theorem isValid_of_append (h : line.toList = as ++ bs) : String.Pos.Raw.IsValid line ⟨size as⟩ := by
  refine String.Pos.Raw.isValid_iff_exists_append.2 ⟨String.ofList as, String.ofList bs, ?_, ?_⟩
  · rw [← String.ofList_append, ← h, String.ofList_toList]
  · rw [← String.toList_ofList (l := as), size_toList, String.toList_ofList]
    rfl

theorem exists_append_of_isValid {p : String.Pos.Raw} (h : p.IsValid line) :
    ∃ as bs, line.toList = as ++ bs ∧ p.byteIdx = size as := by
  obtain ⟨a, b, rfl, rfl⟩ := String.Pos.Raw.isValid_iff_exists_append.1 h
  exact ⟨a.toList, b.toList, String.toList_append, (size_toList a).symm⟩

theorem get?_of_append (h : line.toList = as ++ bs) : String.Pos.Raw.get? line ⟨size as⟩ = bs.head? := by
  rw [← String.ofList_toList (s := line), h, size_eq_utf8Len, String.get?_of_valid]

theorem extract_of_append (h : line.toList = as ++ cs ++ bs) :
    String.Pos.Raw.extract line ⟨size as⟩ ⟨size as + size cs⟩ = String.ofList cs := by
  rw [← String.ofList_toList (s := line), h, size_eq_utf8Len, size_eq_utf8Len, String.extract_of_valid]

end LineMatch.Text
