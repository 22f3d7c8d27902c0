/-
  LineMatch.Proofs.Comments.Blanks — comments as blanks.

  Stripping leaves of a comment its line feeds; a reader of the text might expect a space
  there as well. `spaced` is the text with these spaces. It differs from what stripping
  leaves only where a comment without a line feed stands inside a word (`Joins`).

  Proved:
  - `strip_spaced`: the text with spaces holds no comments.
  - `clashes_spaced`: a word begins behind another in it if one does without the spaces, or
    where a comment stands inside a word (`Accounts`).
  - `tight_spaced`: if none does, the texts are the same when tight.
-/

import LineMatch.Proofs.Comments.Clean
import LineMatch.Proofs.Json.Spacing

namespace LineMatch.Comments

open Json (Standing tight Clashes IsBlank isWordChar isMark)
open Json.Read (isSpace)

/-- What a reader would expect of a piece: of a comment a space and the line feeds in it. -/
def Piece.spaced (p : Piece) : List Char := if p.isComment then ' ' :: p.kept else p.text

/-- The text with a space and its line feeds in the place of each comment. -/
def spaced (ps : List Piece) : String := String.ofList (ps.flatMap Piece.spaced)

/-- Comments without a line feed, of which nothing is left. -/
def IsGap (qs : List Piece) : Prop := ∀ q ∈ qs, q.isComment = true ∧ q.kept = []

/-- Between two characters of words stand comments without a line feed, and nothing else. -/
def Joins (ps : List Piece) : Prop :=
  ∃ before a qs b after, ps = before ++ .other a :: (qs ++ .other b :: after) ∧ qs ≠ [] ∧ IsGap qs ∧
    isWordChar a = true ∧ isWordChar b = true

variable {cs rest body x y : List Char} {a b c : Char} {p : Piece} {ps qs : List Piece} {s s' t : Standing}

theorem strip_spaced (h : Fit ps) : strip (spaced ps) = spaced ps := by
  have hputFor : ps.flatMap Piece.spaced = textOf (putFor (fun p => ' ' :: p.kept) ps) := textOf_putFor.symm
  rw [spaced, hputFor]
  refine strip_putFor h fun p _ hp => ?_
  exact List.forall_mem_cons.2 ⟨by decide, Piece.kept_inert hp⟩

/-! ## Strings -/

/-- The standing behind the opening quote and `x`, which does not close yet. -/
def inside (x : List Char) : Standing := if escapes x then .escaped else .string

theorem next_inside (h : ¬Kind.string.Closes (x ++ [c])) : (inside x).next c = inside (x ++ [c]) := by
  rw [Kind.closes_string] at h
  cases hx : escapes x with
  | true => simp [inside, hx, escapes_concat, Standing.next]
  | false =>
    have hc : c ≠ '"' := fun hc => h ⟨hc, hx⟩
    by_cases hbackslash : c = '\\' <;> simp [inside, hx, escapes_concat, Standing.next, hc, hbackslash]

theorem next_closing (h : Kind.string.Closes (x ++ [c])) : (inside x).next c = .apart := by
  obtain ⟨rfl, hx⟩ := Kind.closes_string.1 h
  simp [inside, hx, Standing.next]

/-- The same standing is reached by all characters of `cs`, and all of them count. -/
def Passes (s : Standing) (cs : List Char) (s' : Standing) : Prop :=
  ∀ x, tight s (cs ++ x) = cs ++ tight s' x ∧ (Clashes s (cs ++ x) ↔ Clashes s' x)

theorem Passes.nil : Passes s [] s := fun _ => ⟨rfl, Iff.rfl⟩

theorem Passes.cons (hc : s.written c = [c]) (hclash : s.clashes c = false) (h : Passes (s.next c) cs s') :
    Passes s (c :: cs) s' := by
  intro x
  obtain ⟨htight, hclashes⟩ := h x
  refine ⟨?_, ?_⟩
  · rw [List.cons_append, tight, hc, htight]
    rfl
  · rw [List.cons_append, Clashes, hclash, hclashes]
    simp

theorem passes_rest (h : (Piece.enclosed .string body).Fits rest) (hclose : ¬Kind.string.Closes x)
    (hbody : body = x ++ cs) : ∃ s', Passes (inside x) cs s' ∧ (rest ≠ [] → s' = .apart) := by
  induction cs generalizing x with
  | nil =>
    rw [List.append_nil] at hbody
    exact ⟨inside x, .nil, fun hrest => absurd (h.2.resolve_left (hbody ▸ hclose)) hrest⟩
  | cons c cs ih =>
    have hin : (inside x).isOutside = false := by
      unfold inside
      split <;> rfl
    have hclash : (inside x).clashes c = false := by
      refine Standing.clashes_of_ne fun hpast => ?_
      rw [hpast] at hin
      cases hin
    by_cases hc : Kind.string.Closes (x ++ [c])
    · have hall : x ++ [c] = body := h.1 _ ⟨cs, by simp [hbody]⟩ hc
      have hcs : cs = [] := by simpa [hbody] using hall.symm
      subst hcs
      exact ⟨.apart, .cons (Standing.written_inside hin) hclash (by rw [next_closing hc]; exact .nil), fun _ => rfl⟩
    · obtain ⟨s', hpasses, hs'⟩ := ih hc (by simp [hbody])
      exact ⟨s', .cons (Standing.written_inside hin) hclash (by rw [next_inside hc]; exact hpasses), hs'⟩

/-- A string is passed over, and behind it no word went before. -/
theorem passes_string (h : (Piece.enclosed .string body).Fits rest) :
    ∃ s', (rest ≠ [] → s' = .apart) ∧ ∀ s, s.isOutside = true → Passes s (Piece.enclosed .string body).text s' := by
  obtain ⟨s', hpasses, hs'⟩ := passes_rest h Kind.string.not_closes_nil rfl
  refine ⟨s', hs', fun s hs => ?_⟩
  have hclash : s.clashes '"' = false := Standing.clashes_of_not_word rfl
  exact .cons (Standing.written_solid rfl hclash) hclash (by rw [Standing.next_solid hs rfl]; exact hpasses)

/-! ## Side by side -/

/-- The standings without the spaces and with them. -/
def Beside (s t : Standing) : Prop := s.isOutside = true ∧ (t = s ∨ s = .inWord ∧ t = .pastWord)

theorem Beside.refl (h : s.isOutside = true) : Beside s s := ⟨h, .inl rfl⟩

theorem Beside.outside (h : Beside s t) : t.isOutside = true := by
  rcases h with ⟨hs, rfl | ⟨-, rfl⟩⟩
  · exact hs
  · rfl

theorem Beside.pastBlank (h : Beside s t) : t.pastBlank = s.pastBlank := by
  rcases h with ⟨-, rfl | ⟨rfl, rfl⟩⟩ <;> rfl

theorem isBlank_kept (h : p.isComment = true) : IsBlank p.kept := by
  intro c hc
  rw [Piece.kept, if_pos h, List.mem_filter, beq_iff_eq] at hc
  rw [hc.2]
  rfl

/-- Past a comment: with the space a word is over, without it perhaps not. -/
theorem past_comment (h : Beside s t) (hp : p.isComment = true) :
    ∃ s', Beside s' t.pastBlank ∧ (s' = .inWord ↔ s = .inWord ∧ p.kept = []) ∧
      (∀ x, tight s (p.kept ++ x) = tight s' x ∧ (Clashes s (p.kept ++ x) ↔ Clashes s' x)) ∧
      ∀ x, tight t (p.spaced ++ x) = tight t.pastBlank x ∧ (Clashes t (p.spaced ++ x) ↔ Clashes t.pastBlank x) := by
  have hspaced : p.spaced = ' ' :: p.kept := by rw [Piece.spaced, if_pos hp]
  have hblank : IsBlank p.spaced := by
    rw [hspaced]
    exact List.forall_mem_cons.2 ⟨rfl, isBlank_kept hp⟩
  have hspace (x : List Char) := (Json.tight_blanks hblank (by simp [hspaced]) h.outside x).2
  by_cases hkept : p.kept = []
  · refine ⟨s, ⟨h.1, ?_⟩, by simp [hkept], fun x => by simp [hkept], hspace⟩
    rw [h.pastBlank]
    have hs := h.1
    cases s with
    | apart => exact .inl rfl
    | inWord => exact .inr ⟨rfl, rfl⟩
    | pastWord => exact .inl rfl
    | string | escaped => cases hs
  · refine ⟨s.pastBlank, by rw [h.pastBlank]; exact .refl (Standing.isOutside_pastBlank s), ?_, ?_, hspace⟩
    · cases s <;> simp [Standing.pastBlank, hkept]
    · exact fun x => (Json.tight_blanks (isBlank_kept hp) hkept h.1 x).2

/-- Past a blank or a mark both stand at the same place, and in no word. -/
theorem past_other (h : Beside s t) (hquote : c ≠ '"') (hc : isWordChar c = false) :
    ∃ s' out, s'.isOutside = true ∧ s' ≠ .inWord ∧
      (∀ x, tight s (c :: x) = out ++ tight s' x ∧ (Clashes s (c :: x) ↔ Clashes s' x)) ∧
      ∀ x, tight t (c :: x) = out ++ tight s' x ∧ (Clashes t (c :: x) ↔ Clashes s' x) := by
  have hout {r : Standing} (x : List Char) : Clashes r (c :: x) ↔ Clashes (r.next c) x := by
    rw [Clashes, Standing.clashes_of_not_word hc]
    simp
  cases hspace : isSpace c with
  | true =>
    have hnext : t.next c = s.pastBlank := by rw [Standing.next_blank h.outside hspace, h.pastBlank]
    have hnext' : s.next c = s.pastBlank := Standing.next_blank h.1 hspace
    refine ⟨s.pastBlank, [], Standing.isOutside_pastBlank s, ?_, fun x => ⟨?_, ?_⟩, fun x => ⟨?_, ?_⟩⟩
    · cases s <;> decide
    · rw [tight, Standing.written_blank h.1 hspace, hnext']
    · rw [hout, hnext']
    · rw [tight, Standing.written_blank h.outside hspace, hnext]
    · rw [hout, hnext]
  | false =>
    have hmark : isMark c = true := by simpa [isWordChar, hspace, hquote] using hc
    have hnext {r : Standing} (hr : r.isOutside = true) : r.next c = .apart := by
      rw [Standing.next_solid hr hspace, Standing.behind_mark hmark]
    have hwritten {r : Standing} : r.written c = [c] :=
      Standing.written_solid hspace (Standing.clashes_of_not_word hc)
    refine ⟨.apart, [c], rfl, by decide, fun x => ⟨?_, ?_⟩, fun x => ⟨?_, ?_⟩⟩
    · rw [tight, hwritten, hnext h.1]
    · rw [hout, hnext h.1]
    · rw [tight, hwritten, hnext h.outside]
    · rw [hout, hnext h.outside]

theorem clashes_word (hs : s.isOutside = true) (hc : isWordChar c = true) :
    Clashes s (c :: x) ↔ s = .pastWord ∨ Clashes .inWord x := by
  rw [Clashes, Standing.next_word hs hc]
  simp [Standing.clashes, hc]

/-! ## Words that go on -/

/-- Comments without a line feed come, at least one unless the spaces have ended the word
    already, and then a word. -/
def Resumes (t : Standing) (ps : List Piece) : Prop :=
  ∃ qs b after, ps = qs ++ .other b :: after ∧ IsGap qs ∧ isWordChar b = true ∧ (qs = [] → t = .pastWord)

theorem joins_cons : Joins (p :: ps) ↔ (∃ a, p = .other a ∧ isWordChar a = true ∧ Resumes .inWord ps) ∨ Joins ps := by
  constructor
  · rintro ⟨before, a, qs, b, after, heq, hne, hgap, ha, hb⟩
    cases before with
    | nil =>
      obtain ⟨rfl, rfl⟩ := List.cons.inj heq
      exact .inl ⟨a, rfl, ha, qs, b, after, rfl, hgap, hb, fun h => absurd h hne⟩
    | cons q before =>
      obtain ⟨-, rfl⟩ := List.cons.inj heq
      exact .inr ⟨before, a, qs, b, after, rfl, hne, hgap, ha, hb⟩
  · rintro (⟨a, rfl, ha, qs, b, after, rfl, hgap, hb, hne⟩ | ⟨before, a, qs, b, after, rfl, h⟩)
    · exact ⟨[], a, qs, b, after, rfl, fun h => absurd (hne h) (by decide), hgap, ha, hb⟩
    · exact ⟨p :: before, a, qs, b, after, rfl, h⟩

theorem not_joins_nil : ¬Joins [] := by
  rintro ⟨before, a, qs, b, after, heq, -⟩
  exact absurd heq (by simp)

theorem resumes_comment (hp : p.isComment = true) : Resumes t (p :: ps) ↔ p.kept = [] ∧ Resumes .pastWord ps := by
  constructor
  · rintro ⟨qs, b, after, heq, hgap, hb, -⟩
    cases qs with
    | nil =>
      obtain ⟨rfl, -⟩ := List.cons.inj heq
      cases hp
    | cons q qs =>
      obtain ⟨rfl, rfl⟩ := List.cons.inj heq
      rw [IsGap, List.forall_mem_cons] at hgap
      exact ⟨hgap.1.2, qs, b, after, rfl, hgap.2, hb, fun _ => rfl⟩
  · rintro ⟨hkept, qs, b, after, rfl, hgap, hb, -⟩
    exact ⟨p :: qs, b, after, rfl, List.forall_mem_cons.2 ⟨⟨hp, hkept⟩, hgap⟩, hb, nofun⟩

theorem resumes_other (hp : p.isComment = false) :
    Resumes t (p :: ps) ↔ ∃ b, p = .other b ∧ isWordChar b = true ∧ t = .pastWord := by
  constructor
  · rintro ⟨qs, b, after, heq, hgap, hb, hnil⟩
    cases qs with
    | nil => exact ⟨b, (List.cons.inj heq).1, hb, hnil rfl⟩
    | cons q qs =>
      obtain ⟨rfl, -⟩ := List.cons.inj heq
      rw [(hgap p (List.mem_cons_self)).1] at hp
      cases hp
  · rintro ⟨b, rfl, hb, ht⟩
    exact ⟨[], b, ps, rfl, nofun, hb, fun _ => ht⟩

theorem not_resumes_nil : ¬Resumes t [] := by
  rintro ⟨qs, b, after, heq, -⟩
  exact absurd heq (by simp)

/-! ## Without the spaces and with them -/

theorem Piece.kept_of_other (hp : p.isComment = false) : p.kept = p.text := by
  rw [kept, hp, if_neg Bool.false_ne_true]

theorem Piece.spaced_of_other (hp : p.isComment = false) : p.spaced = p.text := by
  rw [spaced, hp, if_neg Bool.false_ne_true]

theorem kept_cons_other : (Piece.other c :: ps).flatMap Piece.kept = c :: ps.flatMap Piece.kept := rfl

theorem spaced_cons_other : (Piece.other c :: ps).flatMap Piece.spaced = c :: ps.flatMap Piece.spaced := rfl

theorem joins_of_not_word (hp : ∀ a, p = .other a → isWordChar a = false) : Joins (p :: ps) ↔ Joins ps := by
  rw [joins_cons]
  refine ⟨fun h => h.resolve_left ?_, .inr⟩
  rintro ⟨a, ha, hword, -⟩
  rw [hp a ha] at hword
  cases hword

theorem Piece.Fits.kinds (h : p.Fits rest) : p.isComment = true ∨ (∃ body, p = .enclosed .string body) ∨
    (∃ c, p = .other c ∧ isWordChar c = true) ∨ ∃ c, p = .other c ∧ c ≠ '"' ∧ isWordChar c = false := by
  cases p with
  | enclosed kind body =>
    cases kind with
    | string => exact .inr (.inl ⟨body, rfl⟩)
    | line | block => exact .inl rfl
  | other c =>
    cases hc : isWordChar c with
    | true => exact .inr (.inr (.inl ⟨c, rfl, hc⟩))
    | false => exact .inr (.inr (.inr ⟨c, rfl, (fits_other.1 h).1, hc⟩))

/-- Words clash with the spaces where they do without them, where a comment stands inside a
    word, and where a word goes on that began before the pieces. -/
def Accounts (s t : Standing) (ps : List Piece) : Prop :=
  Clashes t (ps.flatMap Piece.spaced) ↔
    Clashes s (ps.flatMap Piece.kept) ∨ Joins ps ∨ s = .inWord ∧ Resumes t ps

theorem Accounts.iff (h : Accounts s t ps) : Clashes t (ps.flatMap Piece.spaced) ↔
    Clashes s (ps.flatMap Piece.kept) ∨ Joins ps ∨ s = .inWord ∧ Resumes t ps := h

/-- With its space a comment ends a word that is perhaps not over without it. -/
theorem accounts_comment (h : Beside s t) (hp : p.isComment = true) (ih : ∀ s t, Beside s t → Accounts s t ps) :
    Accounts s t (p :: ps) := by
  obtain ⟨s', hbeside, hword, hkept, hspaced⟩ := past_comment h hp
  have hrest : Accounts s' t.pastBlank ps := ih _ _ hbeside
  have hjoins : Joins (p :: ps) ↔ Joins ps := joins_of_not_word fun a ha => by rw [ha] at hp; cases hp
  rw [Accounts, List.flatMap_cons, List.flatMap_cons, (hkept _).2, (hspaced _).2, hrest.iff, hjoins, resumes_comment hp,
    hword, and_assoc]
  by_cases hs : s = .inWord
  · have hpast : t.pastBlank = .pastWord := by rw [h.pastBlank, hs]; rfl
    rw [hpast]
  · simp [hs]

theorem accounts_string (h : Beside s t) (hfit : Fit (.enclosed .string body :: ps))
    (ih : ∀ s t, Beside s t → Accounts s t ps) : Accounts s t (.enclosed .string body :: ps) := by
  obtain ⟨s', hs', hpasses⟩ := passes_string hfit.1
  have hresumes : ¬Resumes t (.enclosed .string body :: ps) := by
    rw [resumes_other rfl]
    rintro ⟨b, hb, -⟩
    cases hb
  have hjoins : Joins (.enclosed .string body :: ps) ↔ Joins ps := joins_of_not_word fun a ha => by cases ha
  rw [Accounts, List.flatMap_cons, List.flatMap_cons, Piece.kept_of_other rfl, Piece.spaced_of_other rfl,
    (hpasses s h.1 _).2, (hpasses t h.outside _).2, hjoins]
  by_cases hps : ps = []
  · subst hps
    simp [Clashes, not_joins_nil, hresumes]
  · have hapart := hs' (mt textOf_eq_nil.1 hps)
    have hrest : Accounts s' s' ps := ih _ _ (.refl (by rw [hapart]; rfl))
    rw [hrest.iff, hapart]
    simp [hresumes]

theorem accounts_word (h : Beside s t) (hc : isWordChar c = true) (ih : ∀ s t, Beside s t → Accounts s t ps) :
    Accounts s t (.other c :: ps) := by
  have hrest : Accounts .inWord .inWord ps := ih _ _ (.refl rfl)
  have hjoins : Joins (.other c :: ps) ↔ Resumes .inWord ps ∨ Joins ps := by simp [joins_cons, hc]
  have hresumes : Resumes t (.other c :: ps) ↔ t = .pastWord := by simp [resumes_other (p := .other c) rfl, hc]
  have hpast : t = .pastWord ↔ s = .pastWord ∨ s = .inWord ∧ t = .pastWord := by
    rcases h with ⟨-, rfl | ⟨rfl, rfl⟩⟩ <;> simp
  rw [Accounts, kept_cons_other, spaced_cons_other, clashes_word h.1 hc, clashes_word h.outside hc, hrest.iff, hjoins,
    hresumes]
  constructor
  · rintro (ht | hclash | hj | ⟨-, hr⟩)
    · exact (hpast.1 ht).elim (fun hs => .inl (.inl hs)) fun hs => .inr (.inr hs)
    · exact .inl (.inr hclash)
    · exact .inr (.inl (.inr hj))
    · exact .inr (.inl (.inl hr))
  · rintro ((hs | hclash) | (hr | hj) | hs)
    · exact .inl (hpast.2 (.inl hs))
    · exact .inr (.inl hclash)
    · exact .inr (.inr (.inr ⟨rfl, hr⟩))
    · exact .inr (.inr (.inl hj))
    · exact .inl (hpast.2 (.inr hs))

theorem accounts_other (h : Beside s t) (hquote : c ≠ '"') (hc : isWordChar c = false)
    (ih : ∀ s t, Beside s t → Accounts s t ps) : Accounts s t (.other c :: ps) := by
  obtain ⟨s', out, hout, hword, hs, ht⟩ := past_other h hquote hc
  have hrest : Accounts s' s' ps := ih _ _ (.refl hout)
  have hresumes : ¬Resumes t (.other c :: ps) := by simp [resumes_other (p := .other c) rfl, hc]
  have hjoins : Joins (.other c :: ps) ↔ Joins ps := joins_of_not_word fun a ha => by cases ha; exact hc
  rw [Accounts, kept_cons_other, spaced_cons_other, (hs _).2, (ht _).2, hrest.iff, hjoins]
  simp [hresumes, hword]

theorem clashes_spaced (hfit : Fit ps) (h : Beside s t) : Accounts s t ps := by
  induction ps generalizing s t with
  | nil => simp [Accounts, Clashes, not_joins_nil, not_resumes_nil]
  | cons p ps ih =>
    have hrest (s t : Standing) (h : Beside s t) : Accounts s t ps := ih hfit.2 h
    rcases hfit.1.kinds with hp | ⟨body, rfl⟩ | ⟨c, rfl, hc⟩ | ⟨c, rfl, hquote, hc⟩
    · exact accounts_comment h hp hrest
    · exact accounts_string h hfit hrest
    · exact accounts_word h hc hrest
    · exact accounts_other h hquote hc hrest

/-- Where no words clash the spaces do not matter. -/
theorem tight_spaced (hfit : Fit ps) (h : Beside s t) (hclash : ¬Clashes t (ps.flatMap Piece.spaced)) :
    tight t (ps.flatMap Piece.spaced) = tight s (ps.flatMap Piece.kept) := by
  induction ps generalizing s t with
  | nil => rfl
  | cons p ps ih =>
    rcases hfit.1.kinds with hp | ⟨body, rfl⟩ | ⟨c, rfl, hc⟩ | ⟨c, rfl, hquote, hc⟩
    · obtain ⟨s', hbeside, -, hkept, hspaced⟩ := past_comment h hp
      rw [List.flatMap_cons, (hspaced _).2] at hclash
      rw [List.flatMap_cons, List.flatMap_cons, (hkept _).1, (hspaced _).1, ih hfit.2 hbeside hclash]
    · obtain ⟨s', hs', hpasses⟩ := passes_string hfit.1
      rw [List.flatMap_cons, Piece.spaced_of_other rfl, (hpasses t h.outside _).2] at hclash
      rw [List.flatMap_cons, List.flatMap_cons, Piece.kept_of_other rfl, Piece.spaced_of_other rfl,
        (hpasses s h.1 _).1, (hpasses t h.outside _).1]
      by_cases hps : ps = []
      · rw [hps]
        rfl
      · have hapart := hs' (mt textOf_eq_nil.1 hps)
        rw [ih hfit.2 (.refl (by rw [hapart]; rfl)) hclash]
    · rw [spaced_cons_other, clashes_word h.outside hc, not_or] at hclash
      have hs : s ≠ .pastWord := by
        rintro rfl
        rcases h with ⟨-, rfl | ⟨h, -⟩⟩
        · exact hclash.1 rfl
        · cases h
      rw [kept_cons_other, spaced_cons_other, Json.tight_word hs hc h.1, Json.tight_word hclash.1 hc h.outside,
        ih hfit.2 (.refl rfl) hclash.2]
    · obtain ⟨s', out, hout, -, hs, ht⟩ := past_other h hquote hc
      rw [spaced_cons_other, (ht _).2] at hclash
      rw [kept_cons_other, spaced_cons_other, (hs _).1, (ht _).1, ih hfit.2 (.refl hout) hclash]

end LineMatch.Comments
