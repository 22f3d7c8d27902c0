/-
  LineMatch.Proofs.Json.Document — JSON texts, as the format has them.

  `IsDocument` gives the texts of JSON values, with blanks where they may stand, at any
  depth and with numbers of any size: more than can be read.

  Proved:
  - `IsInside.strip`: the characters between the quotes of a string are passed over.
  - `IsDocument.kept`: stripping comments keeps every JSON text.
-/

import LineMatch.Proofs.Comments

namespace LineMatch.Json

open Comments (stripFrom)
open LineMatch.Number (isDigit)

/-! ## Scalars -/

/-- The characters between the quotes of a string. -/
inductive IsInside : List Char → Prop
  | nil : IsInside []
  | plain {c : Char} {cs : List Char} (hquote : c ≠ '"') (hbackslash : c ≠ '\\') (hcontrol : ¬c.toNat < 0x20)
    (h : IsInside cs) : IsInside (c :: cs)
  | letter {c : Char} {cs : List Char} (hc : (Read.escaped? c).isSome = true) (h : IsInside cs) :
    IsInside ('\\' :: c :: cs)
  | hex {ds cs : List Char} (hlength : ds.length = 4) (hds : ∀ d ∈ ds, (Read.hexValue? d).isSome = true)
    (h : IsInside cs) : IsInside ('\\' :: 'u' :: (ds ++ cs))

/-- Digits, of which there is one at least. -/
def IsDigits (cs : List Char) : Prop := cs ≠ [] ∧ ∀ c ∈ cs, isDigit c = true

/-- The parts of a number. -/
structure IsNumber (sign whole fraction exponent : List Char) : Prop where
  sign : sign = [] ∨ sign = ['-']
  whole : IsDigits whole ∧ (whole.head? = some '0' → whole = ['0'])
  fraction : fraction = [] ∨ ∃ ds, IsDigits ds ∧ fraction = '.' :: ds
  exponent : exponent = [] ∨ ∃ e, (e = 'e' ∨ e = 'E') ∧ ∃ s, (s = [] ∨ s = ['+'] ∨ s = ['-']) ∧
    ∃ ds, IsDigits ds ∧ exponent = e :: (s ++ ds)

/-! ## Values -/

/-- The name of a member, up to its colon. -/
def IsName (cs : List Char) : Prop :=
  ∃ before inside after, cs = before ++ '"' :: (inside ++ '"' :: after) ∧ IsBlank before ∧ IsInside inside ∧
    IsBlank after

/-- The text of a JSON value. -/
inductive IsDocument : List Char → Prop
  | word {cs : List Char} (h : cs ∈ ["null".toList, "true".toList, "false".toList]) : IsDocument cs
  | number {sign whole fraction exponent : List Char} (h : IsNumber sign whole fraction exponent) :
    IsDocument (sign ++ whole ++ fraction ++ exponent)
  | string {cs : List Char} (h : IsInside cs) : IsDocument ('"' :: (cs ++ ['"']))
  | noElements {gap : List Char} (h : IsBlank gap) : IsDocument ('[' :: (gap ++ [']']))
  | elements {xs : List (List Char)} (hne : xs ≠ []) (h : ∀ x ∈ xs, IsDocument x) :
    IsDocument ('[' :: ([','].intercalate xs ++ [']']))
  | noMembers {gap : List Char} (h : IsBlank gap) : IsDocument ('\x7b' :: (gap ++ ['\x7d']))
  | members {ms : List (List Char × List Char)} (hne : ms ≠ []) (hname : ∀ m ∈ ms, IsName m.1)
    (h : ∀ m ∈ ms, IsDocument m.2) :
    IsDocument ('\x7b' :: ([','].intercalate (ms.map fun m => m.1 ++ ':' :: m.2) ++ ['\x7d']))
  | padded {before cs after : List Char} (hbefore : IsBlank before) (h : IsDocument cs) (hafter : IsBlank after) :
    IsDocument (before ++ cs ++ after)

/-! ## They are kept -/

variable {cs rest : List Char}

theorem strip_plain (h : ∀ c ∈ cs, c ≠ '"' ∧ c ≠ '\\') :
    stripFrom .string (cs ++ rest) = cs ++ stripFrom .string rest := by
  induction cs with
  | nil => rfl
  | cons c cs ih =>
    rw [List.forall_mem_cons] at h
    simp [stripFrom, h.1.1, h.1.2, ih h.2]

theorem plain_of_hexValue? {d : Char} (h : (Read.hexValue? d).isSome = true) : d ≠ '"' ∧ d ≠ '\\' := by
  constructor
  · rintro rfl
    cases h
  · rintro rfl
    cases h

/-- Stripping comments inside a string passes over its characters. -/
theorem IsInside.strip (h : IsInside cs) : stripFrom .string (cs ++ rest) = cs ++ stripFrom .string rest := by
  induction h with
  | nil => rfl
  | plain hquote hbackslash _ _ ih => simp [stripFrom, hquote, hbackslash, ih]
  | letter _ _ ih => simp [stripFrom, ih]
  | @hex ds cs _ hds _ ih =>
    have hdigits : stripFrom .string (ds ++ (cs ++ rest)) = ds ++ stripFrom .string (cs ++ rest) :=
      strip_plain fun d hd => plain_of_hexValue? (hds d hd)
    simp [stripFrom, hdigits, ih]

theorem IsInside.kept (h : IsInside cs) : Kept ('"' :: (cs ++ ['"'])) := by
  intro rest
  simp [stripFrom, h.strip]

theorem IsName.kept (h : IsName cs) : Kept cs := by
  obtain ⟨before, inside, after, rfl, hbefore, hinside, hafter⟩ := h
  have hstring := (Kept.blank hbefore).append (hinside.kept.append (.blank hafter))
  simpa using hstring

theorem IsDigits.kept (h : IsDigits cs) : Kept cs := by
  refine .of_forall fun c hc => ⟨?_, ?_⟩ <;> rintro rfl <;> exact absurd (h.2 _ hc) (by decide)

theorem IsNumber.kept {sign whole fraction exponent : List Char} (h : IsNumber sign whole fraction exponent) :
    Kept (sign ++ whole ++ fraction ++ exponent) := by
  have hsign : Kept sign := by
    rcases h.sign with rfl | rfl
    · exact .nil
    · exact .of_forall (by simp)
  have hfraction : Kept fraction := by
    rcases h.fraction with rfl | ⟨ds, hds, rfl⟩
    · exact .nil
    · exact .cons (by decide) (by decide) hds.kept
  have hexponent : Kept exponent := by
    rcases h.exponent with rfl | ⟨e, he, s, hs, ds, hds, rfl⟩
    · exact .nil
    · have hs' : Kept s := by
        rcases hs with rfl | rfl | rfl
        · exact .nil
        · exact .of_forall (by simp)
        · exact .of_forall (by simp)
      rcases he with rfl | rfl <;> exact .cons (by decide) (by decide) (hs'.append hds.kept)
  exact ((hsign.append h.whole.1.kept).append hfraction).append hexponent

theorem Kept.intercalate {xs : List (List Char)} (h : ∀ x ∈ xs, Kept x) : Kept ([','].intercalate xs) := by
  induction xs with
  | nil => exact .nil
  | cons x xs ih =>
    rw [List.forall_mem_cons] at h
    cases xs with
    | nil => simpa using h.1
    | cons y xs =>
      rw [List.intercalate_cons_cons]
      exact (h.1.append (.of_forall (by simp))).append (ih h.2)

/-- What stands between brackets. -/
theorem Kept.between {opening closing : Char} (h : Kept cs) (hopening : opening ≠ '/' ∧ opening ≠ '"')
    (hclosing : closing ≠ '/' ∧ closing ≠ '"') : Kept (opening :: (cs ++ [closing])) :=
  .cons hopening.1 hopening.2 (h.append (.cons hclosing.1 hclosing.2 .nil))

theorem IsDocument.kept (h : IsDocument cs) : Kept cs := by
  induction h with
  | word h =>
    simp only [List.mem_cons, List.not_mem_nil, or_false] at h
    rcases h with rfl | rfl | rfl <;> exact .of_forall (by simp)
  | number h => exact h.kept
  | string h => exact h.kept
  | noElements h => exact (Kept.blank h).between (by decide) (by decide)
  | elements _ _ ih => exact (Kept.intercalate ih).between (by decide) (by decide)
  | noMembers h => exact (Kept.blank h).between (by decide) (by decide)
  | members _ hname _ ih =>
    refine (Kept.intercalate fun x hx => ?_).between (by decide) (by decide)
    obtain ⟨m, hm, rfl⟩ := List.mem_map.1 hx
    exact (hname m hm).kept.append (.cons (by decide) (by decide) (ih m hm))
  | padded hbefore _ hafter ih => exact ((Kept.blank hbefore).append ih).append (.blank hafter)

/-- What looks like a comment in a string is none. -/
example : IsDocument "[\"//\"]".toList := by
  have hinside : IsInside "//".toList :=
    .plain (by decide) (by decide) (by decide) (.plain (by decide) (by decide) (by decide) .nil)
  have hstring : ∀ x ∈ ["\"//\"".toList], IsDocument x := by simpa using IsDocument.string hinside
  exact .elements (by decide) hstring

end LineMatch.Json
