/-
  LineMatch.Proofs.Json.Layout — written values, whatever the blanks between their parts.

  A layout chooses the blanks. The text of a value in a layout is given by its parts: the
  texts of elements and members stand between brackets, with commas between them
  (`container`). The two ways values are written are layouts.

  Proved:
  - `compact_eq`, `pretty_eq`: what `compact` and `pretty` write, in their layouts.
  - `escaped_escapeChar`: the ways in which a character of a string is written.
-/

import LineMatch.Json.Reader

namespace LineMatch.Json

/-- A text of blanks only. -/
def IsBlank (cs : List Char) : Prop := ∀ c ∈ cs, Read.isSpace c = true

theorem isBlank_nil : IsBlank [] := fun _ hc => absurd hc List.not_mem_nil

/-- The blanks between the parts of a value. -/
structure Layout where
  /-- Before an element or a member at some depth, and before the bracket that ends them. -/
  gap : Nat → List Char
  afterColon : List Char
  gap_blank (depth : Nat) : IsBlank (gap depth)
  afterColon_blank : IsBlank afterColon

/-! ## Parts of a text -/

/-- A string between its quotes. -/
def escapedText (s : String) : List Char := s.toList.flatMap fun c => (Value.escapeChar c).toList

theorem toList_stringText (s : String) : (Value.stringText s).toList = '"' :: (escapedText s ++ ['"']) := by
  have hjoin (xs : List String) : (String.join xs).toList = xs.flatMap String.toList := by
    simp
  simp [Value.stringText, escapedText, hjoin, List.flatMap_map]

namespace Layout

variable (l : Layout)

/-- Texts at some depth, each but the first after a comma. -/
def items (depth : Nat) : Bool → List (List Char) → List Char
  | _, [] => []
  | isFirst, x :: xs => (if isFirst then [] else [',']) ++ (l.gap depth ++ (x ++ items depth false xs))

/-- Texts between brackets. -/
def container (depth : Nat) (opening closing : Char) (xs : List (List Char)) : List Char :=
  opening :: (l.items (depth + 1) true xs ++ ((if xs.isEmpty then [] else l.gap depth) ++ [closing]))

theorem container_append (depth : Nat) (opening closing : Char) (xs : List (List Char)) (rest : List Char) :
    l.container depth opening closing xs ++ rest =
      opening :: (l.items (depth + 1) true xs ++ ((if xs.isEmpty then [] else l.gap depth) ++ closing :: rest)) := by
  simp [container]

/-- A name and the text of its value. -/
def pair (name : String) (text : List Char) : List Char :=
  '"' :: (escapedText name ++ '"' :: ':' :: (l.afterColon ++ text))

mutual

/-- The text of a value at some depth. -/
def write (depth : Nat) : Value → List Char
  | .null => ['n', 'u', 'l', 'l']
  | .bool b => (Value.boolText b).toList
  | .number n => n.text.toList
  | .string s => '"' :: (escapedText s ++ ['"'])
  | .array vs => l.container depth '[' ']' (elements (depth + 1) vs)
  | .object ms => l.container depth '\x7b' '\x7d' (members (depth + 1) ms)

def elements (depth : Nat) : List Value → List (List Char)
  | [] => []
  | v :: vs => write depth v :: elements depth vs

def members (depth : Nat) : List (String × Value) → List (List Char)
  | [] => []
  | (name, v) :: ms => l.pair name (write depth v) :: members depth ms

end

theorem elements_eq (depth : Nat) (vs : List Value) : l.elements depth vs = vs.map (l.write depth) := by
  induction vs with
  | nil => rfl
  | cons v vs ih => rw [elements, ih, List.map_cons]

theorem members_eq (depth : Nat) (ms : List (String × Value)) :
    l.members depth ms = ms.map fun m => l.pair m.1 (l.write depth m.2) := by
  induction ms with
  | nil => rfl
  | cons m ms ih => rw [members, ih, List.map_cons]

end Layout

/-! ## The two layouts -/

namespace Layout

def compact : Layout where
  gap _ := []
  afterColon := []
  gap_blank _ := isBlank_nil
  afterColon_blank := isBlank_nil

def indentation (depth : Nat) : List Char := '\n' :: List.replicate (2 * depth) ' '

def pretty : Layout where
  gap := indentation
  afterColon := [' ']
  gap_blank depth := by
    intro c hc
    rcases List.mem_cons.1 hc with rfl | hc
    · rfl
    · rw [(List.mem_replicate.1 hc).2]
      rfl
  afterColon_blank := by
    intro c hc
    rw [List.mem_singleton.1 hc]
    rfl

end Layout

mutual

theorem compact_eq (depth : Nat) : ∀ v : Value, v.compact.toList = Layout.compact.write depth v
  | .null => rfl
  | .bool b => by rw [Value.compact, Layout.write]
  | .number n => by rw [Value.compact, Layout.write]
  | .string s => by rw [Value.compact, Layout.write, toList_stringText]
  | .array [] => rfl
  | .array (v :: vs) => by
    rw [Value.compact, Layout.write, Layout.elements]
    simp [compact_eq (depth + 1) v, compactElements_eq (depth + 1) vs, Layout.container, Layout.items,
      Layout.compact]
  | .object [] => rfl
  | .object ((k, v) :: ms) => by
    rw [Value.compact, Layout.write, Layout.members]
    simp [compact_eq (depth + 1) v, compactMembers_eq (depth + 1) ms, toList_stringText, Layout.container,
      Layout.items, Layout.pair, Layout.compact]

theorem compactElements_eq (depth : Nat) : ∀ vs : List Value,
    (Value.compactElements vs).toList = Layout.compact.items depth false (Layout.compact.elements depth vs)
  | [] => rfl
  | v :: vs => by
    rw [Value.compactElements, Layout.elements]
    simp [compact_eq depth v, compactElements_eq depth vs, Layout.items, Layout.compact]

theorem compactMembers_eq (depth : Nat) : ∀ ms : List (String × Value),
    (Value.compactMembers ms).toList = Layout.compact.items depth false (Layout.compact.members depth ms)
  | [] => rfl
  | (k, v) :: ms => by
    rw [Value.compactMembers, Layout.members]
    simp [compact_eq depth v, compactMembers_eq depth ms, toList_stringText, Layout.items, Layout.pair,
      Layout.compact]

end

theorem toList_newLine (depth : Nat) : (Value.newLine depth).toList = Layout.indentation depth := by
  simp [Value.newLine, Layout.indentation]

mutual

theorem prettyAt_eq (depth : Nat) : ∀ v : Value, (v.prettyAt depth).toList = Layout.pretty.write depth v
  | .null => by
    rw [Value.prettyAt, Layout.write]
    rfl
  | .bool b => by rw [Value.prettyAt, Layout.write]
  | .number n => by rw [Value.prettyAt, Layout.write]
  | .string s => by rw [Value.prettyAt, Layout.write, toList_stringText]
  | .array [] => by
    rw [Value.prettyAt, Layout.write]
    rfl
  | .array (v :: vs) => by
    rw [Value.prettyAt, Layout.write, Layout.elements]
    simp [prettyAt_eq (depth + 1) v, prettyElements_eq (depth + 1) vs, toList_newLine, Layout.container,
      Layout.items, Layout.pretty]
  | .object [] => by
    rw [Value.prettyAt, Layout.write]
    rfl
  | .object ((k, v) :: ms) => by
    rw [Value.prettyAt, Layout.write, Layout.members]
    simp [prettyAt_eq (depth + 1) v, prettyMembers_eq (depth + 1) ms, toList_stringText, toList_newLine,
      Layout.container, Layout.items, Layout.pair, Layout.pretty]

theorem prettyElements_eq (depth : Nat) : ∀ vs : List Value,
    (Value.prettyElements depth vs).toList = Layout.pretty.items depth false (Layout.pretty.elements depth vs)
  | [] => rfl
  | v :: vs => by
    rw [Value.prettyElements, Layout.elements]
    simp [prettyAt_eq depth v, prettyElements_eq depth vs, toList_newLine, Layout.items, Layout.pretty]

theorem prettyMembers_eq (depth : Nat) : ∀ ms : List (String × Value),
    (Value.prettyMembers depth ms).toList = Layout.pretty.items depth false (Layout.pretty.members depth ms)
  | [] => rfl
  | (k, v) :: ms => by
    rw [Value.prettyMembers, Layout.members]
    simp [prettyAt_eq depth v, prettyMembers_eq depth ms, toList_stringText, toList_newLine, Layout.items,
      Layout.pair, Layout.pretty]

end

theorem pretty_eq (v : Value) : v.pretty.toList = Layout.pretty.write 0 v := prettyAt_eq 0 v

/-! ## Escapes -/

/-- The escape of a control character without a letter of its own. -/
theorem hexEscape_eq {n : Nat} (h : n < 0x20) :
    ("\\u00" ++ (if n < 0x10 then "0" else "") ++ Text.hexDigits n).toList =
      ['\\', 'u', '0', '0', (n / 16).digitChar, (n % 16).digitChar] := by
  have hdigits : ∀ n < 0x20, (if n < 0x10 then "0" else "").toList ++ Nat.toDigits 16 n =
      [(n / 16).digitChar, (n % 16).digitChar] := by decide
  have hlist : (String.ofList (Nat.toDigits 16 n)).toList = Nat.toDigits 16 n := String.toList_ofList
  rw [String.toList_append, String.toList_append, List.append_assoc, Text.hexDigits, hlist, hdigits n h]
  rfl

/-- How a character is escaped: by a letter after a backslash, as a number, or not at all. -/
inductive Escaped (c : Char) : List Char → Prop
  | letter (d : Char) (h : Read.escaped? d = some c) (hd : d ≠ 'u') : Escaped c ['\\', d]
  | hex (h : c.toNat < 0x20) :
    Escaped c ['\\', 'u', '0', '0', (c.toNat / 16).digitChar, (c.toNat % 16).digitChar]
  | plain (hquote : c ≠ '"') (hbackslash : c ≠ '\\') (h : ¬c.toNat < 0x20) : Escaped c [c]

theorem escaped_escapeChar (c : Char) : Escaped c (Value.escapeChar c).toList := by
  unfold Value.escapeChar
  split
  · next h =>
    subst h
    exact .letter '"' rfl (by decide)
  next hquote =>
  split
  · next h =>
    subst h
    exact .letter '\\' rfl (by decide)
  next hbackslash =>
  split
  · next h =>
    subst h
    exact .letter 'n' rfl (by decide)
  split
  · next h =>
    subst h
    exact .letter 'r' rfl (by decide)
  split
  · next h =>
    subst h
    exact .letter 't' rfl (by decide)
  split
  · next h =>
    subst h
    exact .letter 'b' rfl (by decide)
  split
  · next h =>
    subst h
    exact .letter 'f' rfl (by decide)
  split
  · next h =>
    rw [hexEscape_eq h]
    exact .hex h
  · next h =>
    have hchar : c.toString.toList = [c] := by simp
    rw [hchar]
    exact .plain hquote hbackslash h

end LineMatch.Json
