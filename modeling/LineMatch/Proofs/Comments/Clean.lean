/-
  LineMatch.Proofs.Comments.Clean — texts without comments.

  Put other characters in the place of each comment: as long as they open nothing, the
  pieces on both sides stay what they were. No character before a comment can open
  something with what comes after it, since a slash before a comment would have opened
  one itself.

  Proved:
  - `Fit.putFor`: the other pieces fit, whatever stands for the comments.
  - `strip_of_clean`: a text without comments is left as it is.
  - `strip_strip`: so is what stripping leaves, and so is every JSON text.
-/

import LineMatch.Proofs.Comments.Pieces
import LineMatch.Proofs.Json.Document

namespace LineMatch.Comments

/-- The pieces with characters in the place of each comment. -/
def putFor (f : Piece → List Char) (ps : List Piece) : List Piece :=
  ps.flatMap fun p => if p.isComment then (f p).map .other else [p]

/-- Characters at which nothing opens. -/
def IsInert (cs : List Char) : Prop := ∀ c ∈ cs, c ≠ '/' ∧ c ≠ '"'

variable {cs rest rest' : List Char} {c : Char} {f : Piece → List Char} {p : Piece} {ps : List Piece} {t : String}

theorem putFor_comment (h : p.isComment = true) : putFor f (p :: ps) = (f p).map .other ++ putFor f ps := by
  rw [putFor, List.flatMap_cons, if_pos h, putFor]

theorem putFor_other (h : p.isComment = false) : putFor f (p :: ps) = p :: putFor f ps := by
  rw [putFor, List.flatMap_cons, h, if_neg Bool.false_ne_true, putFor, List.singleton_append]

theorem textOf_append {qs : List Piece} : textOf (ps ++ qs) = textOf ps ++ textOf qs := List.flatMap_append

theorem textOf_map_other : textOf (cs.map .other) = cs := by
  induction cs with
  | nil => rfl
  | cons c cs ih => rw [List.map_cons, textOf_cons, ih, Piece.text, List.singleton_append]

theorem textOf_putFor : textOf (putFor f ps) = ps.flatMap fun p => if p.isComment then f p else p.text := by
  induction ps with
  | nil => rfl
  | cons p ps ih =>
    rw [List.flatMap_cons, ← ih]
    cases h : p.isComment with
    | true => rw [putFor_comment h, textOf_append, textOf_map_other, if_pos rfl]
    | false => rw [putFor_other h, textOf_cons, if_neg Bool.false_ne_true]

theorem isComment_of_mem_putFor (h : p ∈ putFor f ps) : p.isComment = false := by
  obtain ⟨q, _, hp⟩ := List.mem_flatMap.1 h
  cases hq : q.isComment with
  | true =>
    rw [if_pos hq] at hp
    obtain ⟨c, _, rfl⟩ := List.mem_map.1 hp
    rfl
  | false =>
    rw [hq, if_neg Bool.false_ne_true, List.mem_singleton] at hp
    rw [hp, hq]

/-! ## The other pieces fit -/

theorem Piece.fits_other : (other c).Fits rest ↔
    c ≠ '"' ∧ ¬(c = '/' ∧ (rest.head? = some '/' ∨ rest.head? = some '*')) := by
  constructor
  · intro h
    refine ⟨?_, ?_⟩
    · rintro rfl
      exact h .string ⟨rest, rfl⟩
    · rintro ⟨rfl, hhead | hhead⟩
      · obtain ⟨ds, rfl⟩ := List.head?_eq_some_iff.1 hhead
        exact h .line ⟨ds, rfl⟩
      · obtain ⟨ds, rfl⟩ := List.head?_eq_some_iff.1 hhead
        exact h .block ⟨ds, rfl⟩
  · rintro ⟨hquote, hslash⟩ kind ⟨ds, hds⟩
    cases kind with
    | string => exact hquote (List.cons.inj hds).1.symm
    | line =>
      obtain ⟨rfl, rfl⟩ := List.cons.inj hds
      exact hslash ⟨rfl, .inl rfl⟩
    | block =>
      obtain ⟨rfl, rfl⟩ := List.cons.inj hds
      exact hslash ⟨rfl, .inr rfl⟩

theorem Piece.head?_text_append (p : Piece) (cs : List Char) : (p.text ++ cs).head? = p.text.head? := by
  rw [List.head?_append, Option.or_of_isSome (List.isSome_head?.2 p.text_ne_nil)]

theorem Piece.head?_comment (h : p.isComment = true) : p.text.head? = some '/' := by
  cases p with
  | other c => cases h
  | enclosed kind body =>
    cases kind with
    | string => cases h
    | line | block => rfl

/-- After a slash that opens nothing stands no comment, so what opens nothing with it stays. -/
theorem Piece.Fits.other_putFor (h : (other c).Fits (textOf ps)) : (other c).Fits (textOf (putFor f ps)) := by
  rw [fits_other] at h ⊢
  refine ⟨h.1, fun hslash => h.2 ⟨hslash.1, ?_⟩⟩
  cases ps with
  | nil => exact hslash.2
  | cons p ps =>
    rw [textOf_cons, p.head?_text_append]
    cases hp : p.isComment with
    | true => exact .inl (head?_comment hp)
    | false =>
      have hstays := hslash.2
      rwa [putFor_other hp, textOf_cons, p.head?_text_append] at hstays

theorem fit_append_inert (hcs : IsInert cs) (h : Fit ps) : Fit (cs.map .other ++ ps) := by
  induction cs with
  | nil => exact h
  | cons c cs ih =>
    rw [IsInert, List.forall_mem_cons] at hcs
    exact ⟨Piece.fits_other.2 ⟨hcs.1.2, fun hslash => hcs.1.1 hslash.1⟩, ih hcs.2⟩

theorem Fit.putFor (h : Fit ps) (hf : ∀ p ∈ ps, p.isComment = true → IsInert (f p)) : Fit (putFor f ps) := by
  induction ps with
  | nil => exact trivial
  | cons p ps ih =>
    rw [List.forall_mem_cons] at hf
    cases hp : p.isComment with
    | true =>
      rw [putFor_comment hp]
      exact fit_append_inert (hf.1 hp) (ih h.2 hf.2)
    | false =>
      rw [putFor_other hp]
      refine ⟨?_, ih h.2 hf.2⟩
      cases p with
      | other c => exact h.1.other_putFor
      | enclosed kind body =>
        refine ⟨h.1.1, h.1.2.imp_right fun hrest => ?_⟩
        rw [textOf_eq_nil.1 hrest]
        rfl

/-! ## Texts without comments -/

theorem flatMap_kept (hclean : ∀ p ∈ ps, p.isComment = false) : ps.flatMap Piece.kept = textOf ps :=
  List.flatMap_congr fun p hp => by rw [Piece.kept, hclean p hp, if_neg Bool.false_ne_true]

theorem strip_of_clean (h : IsSplit t.toList ps) (hclean : ∀ p ∈ ps, p.isComment = false) : strip t = t := by
  rw [← String.toList_inj, toList_strip h, flatMap_kept hclean, h.text]

/-- With characters at which nothing opens in the place of its comments a text holds none. -/
theorem strip_putFor (h : Fit ps) (hf : ∀ p ∈ ps, p.isComment = true → IsInert (f p)) :
    strip (String.ofList (textOf (putFor f ps))) = String.ofList (textOf (putFor f ps)) := by
  have hsplit : IsSplit (String.ofList (textOf (putFor f ps))).toList (putFor f ps) :=
    ⟨String.toList_ofList.symm, h.putFor hf⟩
  exact strip_of_clean hsplit fun p hp => isComment_of_mem_putFor hp

theorem Piece.kept_inert (h : p.isComment = true) : IsInert p.kept := by
  intro c hc
  rw [kept, if_pos h, List.mem_filter, beq_iff_eq] at hc
  rw [hc.2]
  decide

/-- What stripping leaves is the text with their line feeds in the place of the comments. -/
theorem strip_eq_putFor (h : IsSplit t.toList ps) : strip t = String.ofList (textOf (putFor Piece.kept ps)) := by
  rw [← String.toList_inj, toList_strip h, String.toList_ofList, textOf_putFor]
  refine List.flatMap_congr fun p _ => ?_
  rw [Piece.kept]
  split <;> rfl

/-- Stripping leaves no comment behind, and leaves a text that holds none as it is; such are
    the JSON texts. -/
theorem strip_strip (t : String) : strip (strip t) = strip t ∧
    (∀ ps, IsSplit t.toList ps → (∀ p ∈ ps, p.isComment = false) → strip t = t) ∧
    (Json.IsDocument t.toList → strip t = t) := by
  refine ⟨?_, fun ps hps hclean => strip_of_clean hps hclean, fun hdocument => ?_⟩
  · obtain ⟨ps, hps⟩ := exists_split t.toList
    rw [strip_eq_putFor hps]
    exact strip_putFor hps.fit fun p _ hp => Piece.kept_inert hp
  · have hkept := hdocument.kept []
    rw [List.append_nil, stripFrom, List.append_nil] at hkept
    rw [strip, hkept, String.ofList_toList]

end LineMatch.Comments
