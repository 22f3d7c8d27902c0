/-
  LineMatch.Proofs.Comments.Pieces — a text as strings, comments and other characters.

  A string or a comment begins with its opening and goes on to where it closes first, or
  to the end of the text. `Fit` says so of pieces that follow one another, and that nothing
  opens at a character that is a piece by itself.

  Proved:
  - `exists_split`, `Fit.unique`: every text is made of such pieces, in one way.
  - `stripFrom_textOf`: stripping leaves of each piece what is `kept` of it.
  - `lines_stripFrom`: it takes characters out of lines, and no line out of the text.
  - `strip_pieces`: the three together.
-/

import Mathlib.Data.List.Forall2
import Mathlib.Data.List.Infix
import Mathlib.Data.Nat.Find
import LineMatch.Comments

namespace LineMatch.Comments

/-! ## Pieces -/

/-- Whether the text ends in a backslash that escapes what comes after it. -/
def escapes (cs : List Char) : Bool := cs.foldl (fun escaped c => !escaped && c == '\\') false

/-- What goes on to its own end. -/
inductive Kind where
  | string | line | block
  deriving DecidableEq, Repr

namespace Kind

def opening : Kind → List Char
  | string => ['"']
  | line => ['/', '/']
  | block => ['/', '*']

/-- What follows the opening is closed at its end. -/
def Closes : Kind → List Char → Prop
  | string, body => ['"'] <:+ body ∧ escapes body.dropLast = false
  | line, body => ['\n'] <:+ body
  | block, body => ['*', '/'] <:+ body

instance decidableCloses : ∀ (kind : Kind) (body : List Char), Decidable (kind.Closes body)
  | string, body => inferInstanceAs (Decidable (['"'] <:+ body ∧ escapes body.dropLast = false))
  | line, body => inferInstanceAs (Decidable (['\n'] <:+ body))
  | block, body => inferInstanceAs (Decidable (['*', '/'] <:+ body))

end Kind

inductive Piece where
  /-- A string or a comment: its opening and what follows that. -/
  | enclosed (kind : Kind) (body : List Char)
  | other (c : Char)
  deriving DecidableEq, Repr

namespace Piece

def text : Piece → List Char
  | enclosed kind body => kind.opening ++ body
  | other c => [c]

def isComment : Piece → Bool
  | enclosed .line _ | enclosed .block _ => true
  | enclosed .string _ | other _ => false

/-- What stripping comments leaves of a piece: of a comment the line feeds in it. -/
def kept (p : Piece) : List Char := if p.isComment then p.text.filter (· == '\n') else p.text

/-- A piece of a text that goes on with `rest`. -/
def Fits (rest : List Char) : Piece → Prop
  | enclosed kind body => (∀ x, x <+: body → kind.Closes x → x = body) ∧ (kind.Closes body ∨ rest = [])
  | other c => ∀ kind : Kind, ¬kind.opening <+: c :: rest

end Piece

def textOf (ps : List Piece) : List Char := ps.flatMap Piece.text

/-- Each piece fits before those after it. -/
def Fit : List Piece → Prop
  | [] => True
  | p :: ps => p.Fits (textOf ps) ∧ Fit ps

/-- The text is made of these pieces. -/
structure IsSplit (cs : List Char) (ps : List Piece) : Prop where
  text : textOf ps = cs
  fit : Fit ps

section

instance (rest : List Char) : ∀ p : Piece, Decidable (p.Fits rest)
  | .enclosed kind body =>
    decidable_of_iff ((∀ x ∈ body.inits, kind.Closes x → x = body) ∧ (kind.Closes body ∨ rest = []))
      (by simp only [List.mem_inits, Piece.Fits])
  | .other c =>
    decidable_of_iff (∀ kind ∈ [Kind.string, .line, .block], ¬kind.opening <+: c :: rest)
      ⟨fun h kind => h kind (by cases kind <;> simp), fun h kind _ => h kind⟩

instance decidableFit : ∀ ps : List Piece, Decidable (Fit ps)
  | [] => inferInstanceAs (Decidable True)
  | p :: ps =>
    have := decidableFit ps
    inferInstanceAs (Decidable (p.Fits (textOf ps) ∧ Fit ps))

instance (cs : List Char) (ps : List Piece) : Decidable (IsSplit cs ps) :=
  decidable_of_iff (textOf ps = cs ∧ Fit ps) ⟨fun h => ⟨h.1, h.2⟩, fun h => ⟨h.text, h.fit⟩⟩

end

variable {cs ds rest rest' body body' x : List Char} {c : Char} {kind kind' : Kind} {p q : Piece}
  {ps qs : List Piece}

@[simp] theorem textOf_nil : textOf [] = [] := rfl

@[simp] theorem textOf_cons : textOf (p :: ps) = p.text ++ textOf ps := List.flatMap_cons

theorem Piece.text_ne_nil (p : Piece) : p.text ≠ [] := by
  cases p with
  | enclosed kind body => cases kind <;> simp [text, Kind.opening]
  | other c => simp [text]

theorem textOf_eq_nil : textOf ps = [] ↔ ps = [] := by
  cases ps with
  | nil => simp
  | cons p ps => simp [p.text_ne_nil]

/-! ## Every text has pieces -/

/-- What follows an opening goes on to where it closes first. -/
theorem exists_body (kind : Kind) (cs : List Char) :
    ∃ body rest, cs = body ++ rest ∧ (Piece.enclosed kind body).Fits rest := by
  by_cases h : ∃ n, kind.Closes (cs.take n)
  · let n := Nat.find h
    refine ⟨cs.take n, cs.drop n, (List.take_append_drop n cs).symm, fun x hx hclose => ?_, .inl (Nat.find_spec h)⟩
    have hx' := List.prefix_iff_eq_take.1 (hx.trans (List.take_prefix n cs))
    have hle : n ≤ x.length := Nat.find_min' h (hx' ▸ hclose)
    exact hx.eq_of_length_le (by rw [List.length_take]; omega)
  · refine ⟨cs, [], (List.append_nil cs).symm, fun x hx hclose => ?_, .inr rfl⟩
    rw [List.prefix_iff_eq_take.1 hx] at hclose
    exact absurd ⟨_, hclose⟩ h

theorem exists_split (cs : List Char) : ∃ ps, IsSplit cs ps := by
  induction hn : cs.length using Nat.strongRecOn generalizing cs with
  | ind n ih =>
  subst hn
  rcases cs with _ | ⟨c, cs⟩
  · exact ⟨[], rfl, trivial⟩
  by_cases hopen : ∃ kind : Kind, kind.opening <+: c :: cs
  · obtain ⟨kind, ds, hds⟩ := hopen
    obtain ⟨body, rest, rfl, hfits⟩ := exists_body kind ds
    have hlength : rest.length < (c :: cs).length := by
      rw [← hds]
      cases kind <;> simp [Kind.opening] <;> omega
    obtain ⟨ps, htext, hfit⟩ := ih _ hlength rest rfl
    refine ⟨.enclosed kind body :: ps, ?_, htext ▸ hfits, hfit⟩
    rw [textOf_cons, htext, Piece.text, List.append_assoc, hds]
  · obtain ⟨ps, htext, hfit⟩ := ih cs.length (Nat.lt_succ_self _) cs rfl
    exact ⟨.other c :: ps, by rw [textOf_cons, htext]; rfl, htext ▸ not_exists.1 hopen, hfit⟩

/-! ## They are its only pieces -/

theorem Kind.eq_of_opening (h : kind.opening <+: cs) (h' : kind'.opening <+: cs) : kind = kind' := by
  obtain ⟨ds, rfl⟩ := h
  obtain ⟨ds', h'⟩ := h'
  cases kind <;> cases kind' <;> simp [Kind.opening] at h' ⊢

theorem opens_text (kind : Kind) (body rest : List Char) :
    kind.opening <+: (Piece.enclosed kind body).text ++ rest := by
  rw [Piece.text, List.append_assoc]
  exact List.prefix_append _ _

/-- Of two bodies at one place the first that closes is the other one too. -/
theorem Piece.Fits.body_eq (h : (enclosed kind body).Fits rest) (h' : (enclosed kind body').Fits rest')
    (heq : body ++ rest = body' ++ rest') : body = body' := by
  have hle {body body' rest rest'} (h : (enclosed kind body).Fits rest) (h' : (enclosed kind body').Fits rest')
      (heq : body ++ rest = body' ++ rest') (hwithin : body <+: body') : body = body' := by
    rcases h.2 with hclose | rfl
    · exact h'.1 body hwithin hclose
    · rw [List.append_nil] at heq
      exact hwithin.eq_of_length_le (by simp [heq])
  rcases List.append_eq_append_iff.1 heq with ⟨more, hmore, -⟩ | ⟨more, hmore, -⟩
  · exact hle h h' heq ⟨more, hmore.symm⟩
  · exact (hle h' h heq.symm ⟨more, hmore.symm⟩).symm

theorem Piece.Fits.unique (h : p.Fits rest) (h' : q.Fits rest') (heq : p.text ++ rest = q.text ++ rest') :
    p = q ∧ rest = rest' := by
  cases p with
  | enclosed kind body =>
    have hopen := opens_text kind body rest
    rw [heq] at hopen
    cases q with
    | enclosed kind' body' =>
      obtain rfl := Kind.eq_of_opening hopen (opens_text kind' body' rest')
      simp only [text, List.append_assoc, List.append_cancel_left_eq] at heq
      obtain rfl := h.body_eq h' heq
      exact ⟨rfl, List.append_cancel_left heq⟩
    | other c => exact absurd hopen (h' kind)
  | other c =>
    cases q with
    | enclosed kind body =>
      have hopen := opens_text kind body rest'
      rw [← heq] at hopen
      exact absurd hopen (h kind)
    | other d =>
      obtain ⟨rfl, rfl⟩ := List.cons.inj heq
      exact ⟨rfl, rfl⟩

theorem Fit.unique (h : Fit ps) (h' : Fit qs) (heq : textOf ps = textOf qs) : ps = qs := by
  induction ps generalizing qs with
  | nil => exact (textOf_eq_nil.1 heq.symm).symm
  | cons p ps ih =>
    cases qs with
    | nil => exact absurd (textOf_eq_nil.1 heq) nofun
    | cons q qs =>
      obtain ⟨rfl, hrest⟩ := h.1.unique h'.1 heq
      rw [ih h.2 h'.2 hrest]

/-! ## What is left of them -/

namespace Kind

/-- Where reading stands after `x`, which follows the opening and does not close yet. -/
def place : Kind → List Char → Place
  | string, x => if escapes x then .escaped else .string
  | line, _ => .line
  | block, x => .block (x.getLast? == some '*')

/-- Whether a character inside is left where it stands. -/
def keeps (kind : Kind) (c : Char) : Bool := kind == string || c == '\n'

end Kind

theorem escapes_concat : escapes (x ++ [c]) = (!escapes x && c == '\\') := by simp [escapes]

namespace Kind

theorem closes_string : string.Closes (x ++ [c]) ↔ c = '"' ∧ escapes x = false := by
  rw [Closes, List.singleton_suffix_append_singleton_iff, List.dropLast_concat, eq_comm]

theorem closes_line : line.Closes (x ++ [c]) ↔ c = '\n' := by
  rw [Closes, List.singleton_suffix_append_singleton_iff, eq_comm]

theorem closes_block : block.Closes (x ++ [c]) ↔ x.getLast? = some '*' ∧ c = '/' := by
  rw [Closes, List.suffix_concat_iff, ← List.singleton_suffix_iff_getLast?_eq_some]
  constructor
  · rintro (h | ⟨t, ht, hx⟩)
    · cases h
    · have hlast : ['*'] = t ∧ ['/'] = [c] := List.append_inj' ht rfl
      obtain ⟨rfl, hc⟩ := hlast
      exact ⟨hx, (List.cons.inj hc).1.symm⟩
  · rintro ⟨hx, rfl⟩
    exact .inr ⟨['*'], rfl, hx⟩

end Kind

theorem stripFrom_opening (kind : Kind) (cs : List Char) :
    stripFrom .text (kind.opening ++ cs) = kind.opening.filter kind.keeps ++ stripFrom (kind.place []) cs := by
  cases kind <;> simp [Kind.opening, Kind.keeps, Kind.place, escapes, stripFrom]

theorem stripFrom_inside (h : ¬kind.Closes (x ++ [c])) :
    stripFrom (kind.place x) (c :: cs) = [c].filter kind.keeps ++ stripFrom (kind.place (x ++ [c])) cs := by
  cases kind with
  | string =>
    rw [Kind.closes_string] at h
    cases hx : escapes x with
    | true => simp [Kind.place, Kind.keeps, hx, stripFrom, escapes_concat]
    | false =>
      have hc : c ≠ '"' := fun hc => h ⟨hc, hx⟩
      simp [Kind.place, Kind.keeps, hx, stripFrom, escapes_concat, hc]
  | line =>
    rw [Kind.closes_line] at h
    simp [Kind.place, Kind.keeps, stripFrom, h]
  | block =>
    rw [Kind.closes_block] at h
    by_cases hc : c = '\n'
    · simp [Kind.place, Kind.keeps, stripFrom, hc]
    · simp [Kind.place, Kind.keeps, stripFrom, h, hc]

theorem stripFrom_closing (h : kind.Closes (x ++ [c])) :
    stripFrom (kind.place x) (c :: cs) = [c].filter kind.keeps ++ stripFrom .text cs := by
  cases kind with
  | string =>
    obtain ⟨rfl, hx⟩ := Kind.closes_string.1 h
    simp [Kind.place, Kind.keeps, hx, stripFrom]
  | line =>
    cases Kind.closes_line.1 h
    simp [Kind.place, Kind.keeps, stripFrom]
  | block =>
    obtain ⟨hx, rfl⟩ := Kind.closes_block.1 h
    simp [Kind.place, Kind.keeps, hx, stripFrom]

/-- A body is left character by character: `x` of it is read. -/
theorem stripFrom_rest (h : (Piece.enclosed kind body).Fits rest) (hclose : ¬kind.Closes x) (hbody : body = x ++ cs) :
    stripFrom (kind.place x) (cs ++ rest) = cs.filter kind.keeps ++ stripFrom .text rest := by
  induction cs generalizing x with
  | nil =>
    rw [List.append_nil] at hbody
    rw [h.2.resolve_left (hbody ▸ hclose)]
    cases kind <;> simp [stripFrom]
  | cons c cs ih =>
    rw [← List.singleton_append, List.filter_append, List.append_assoc, List.append_assoc, List.singleton_append]
    by_cases hc : kind.Closes (x ++ [c])
    · have hall : x ++ [c] = body := h.1 _ ⟨cs, by simp [hbody]⟩ hc
      have hcs : cs = [] := by simpa [hbody] using hall.symm
      rw [hcs, stripFrom_closing hc]
      rfl
    · rw [stripFrom_inside hc, ih hc (by simp [hbody])]

theorem Kind.not_closes_nil (kind : Kind) : ¬kind.Closes [] := by
  cases kind <;> simp [Closes]

theorem Piece.kept_eq : (enclosed kind body).kept = (kind.opening ++ body).filter kind.keeps := by
  cases kind with
  | string => exact (List.filter_eq_self.2 fun _ _ => rfl).symm
  | line | block => rfl

theorem stripFrom_piece (h : p.Fits rest) : stripFrom .text (p.text ++ rest) = p.kept ++ stripFrom .text rest := by
  cases p with
  | enclosed kind body =>
    rw [Piece.kept_eq, Piece.text, List.append_assoc, stripFrom_opening, List.filter_append, List.append_assoc,
      stripFrom_rest h kind.not_closes_nil rfl]
  | other c =>
    have hquote : c ≠ '"' := by
      rintro rfl
      exact h .string ⟨rest, rfl⟩
    have hline (ds : List Char) (hc : c = '/') (hrest : rest = '/' :: ds) : False :=
      h .line ⟨ds, by rw [hc, hrest]; rfl⟩
    have hblock (ds : List Char) (hc : c = '/') (hrest : rest = '*' :: ds) : False :=
      h .block ⟨ds, by rw [hc, hrest]; rfl⟩
    rw [Piece.text, List.singleton_append, stripFrom, if_neg hquote]
    · rfl
    · exact hline
    · exact hblock

/-- Of each piece is left what is kept of it. -/
theorem stripFrom_textOf (h : Fit ps) : stripFrom .text (textOf ps) = ps.flatMap Piece.kept := by
  induction ps with
  | nil => rfl
  | cons p ps ih => rw [textOf_cons, stripFrom_piece h.1, ih h.2, List.flatMap_cons]

theorem toList_strip {t : String} (h : IsSplit t.toList ps) : (strip t).toList = ps.flatMap Piece.kept := by
  rw [strip, String.toList_ofList, ← h.text, stripFrom_textOf h.fit]

/-! ## Lines -/

/-- As many lines, and each is made of characters of the one with its number, in order. -/
def LinesWithin (cs ds : List Char) : Prop := List.Forall₂ List.Sublist (cs.splitOn '\n') (ds.splitOn '\n')

theorem LinesWithin.nil : LinesWithin [] [] := .cons (List.Sublist.refl _) .nil

theorem splitOn_cons (c : Char) (cs : List Char) : (c :: cs).splitOn '\n' =
    if c = '\n' then [] :: cs.splitOn '\n' else (cs.splitOn '\n').modifyHead (c :: ·) := by
  have h := List.splitOnP_cons_eq_if_modifyHead (p := (· == '\n')) c cs
  simp only [beq_iff_eq] at h
  exact h

/-- A character that is put before both texts, or before the second only. -/
theorem forall₂_modifyHead {f g : List Char → List Char} {xs ys : List (List Char)}
    (hfg : ∀ x y, x.Sublist y → (f x).Sublist (g y)) (h : List.Forall₂ List.Sublist xs ys) :
    List.Forall₂ List.Sublist (xs.modifyHead f) (ys.modifyHead g) := by
  cases h with
  | nil => exact .nil
  | cons hline hlines => exact .cons (hfg _ _ hline) hlines

theorem LinesWithin.cons (c : Char) (h : LinesWithin cs ds) : LinesWithin (c :: cs) (c :: ds) := by
  rw [LinesWithin, splitOn_cons, splitOn_cons]
  by_cases hc : c = '\n'
  · rw [if_pos hc, if_pos hc]
    exact .cons (List.Sublist.refl _) h
  · rw [if_neg hc, if_neg hc]
    exact forall₂_modifyHead (fun x y hxy => hxy.cons_cons c) h

theorem LinesWithin.drop (hc : c ≠ '\n') (h : LinesWithin cs ds) : LinesWithin cs (c :: ds) := by
  have hadd := forall₂_modifyHead (f := id) (fun x y hxy => hxy.cons c) h
  rw [List.modifyHead_id, id] at hadd
  rwa [LinesWithin, splitOn_cons, if_neg hc]

/-- Each step leaves a character where it stands or takes one that is no line feed. -/
theorem lines_stripFrom (place : Place) (cs : List Char) : LinesWithin (stripFrom place cs) cs := by
  fun_induction stripFrom place cs with
  | case1 => exact .nil
  | case2 cs ih => exact (ih.drop (by decide)).drop (by decide)
  | case3 cs ih => exact (ih.drop (by decide)).drop (by decide)
  | case4 c cs _ _ ih => exact ih.cons c
  | case5 c cs ih => exact ih.cons c
  | case6 c cs ih => exact ih.cons c
  | case7 cs ih => exact ih.cons '\n'
  | case8 c cs hc ih => exact ih.drop hc
  | case9 star c cs hend ih => exact ih.drop (by rw [hend.2]; decide)
  | case10 star cs _ ih => exact ih.cons '\n'
  | case11 star c cs _ hc ih => exact ih.drop hc

/-- A text is made of pieces in one way, and stripping comments leaves what is kept of each:
    strings and other characters as they are, and of a comment its line feeds. So no line is
    lost, and each is made of characters of the line with its number. -/
theorem strip_pieces (t : String) : ∃ ps, IsSplit t.toList ps ∧ (∀ qs, IsSplit t.toList qs → qs = ps) ∧
    (strip t).toList = ps.flatMap Piece.kept ∧
    List.Forall₂ List.Sublist ((strip t).toList.splitOn '\n') (t.toList.splitOn '\n') := by
  obtain ⟨ps, hps⟩ := exists_split t.toList
  refine ⟨ps, hps, fun qs hqs => hqs.fit.unique hps.fit (hqs.text.trans hps.text.symm), toList_strip hps, ?_⟩
  rw [strip, String.toList_ofList]
  exact lines_stripFrom .text t.toList

/-- A star closes nothing right after the slash that it opened with. -/
example : IsSplit "/*/a*/b".toList [.enclosed .block "/a*/".toList, .other 'b'] := by decide

end LineMatch.Comments
