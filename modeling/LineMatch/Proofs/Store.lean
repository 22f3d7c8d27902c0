/-
  LineMatch.Proofs.Store — inserts in sequence.

  Proved:
  - `contains_insertAll`: the names there after a sequence of inserts.
  - `mem_insertAll`: the entries after it were inserted or there before.
  - `find?_insertAll`, `value?_insertAll_of_ne`: what is found under a name is what was
    inserted under it last.
  - `insertAll_appends_iff`: inserts only add entries at the end where their names are new
    and distinct, and only there.
  - `nodup_names_insertAll`, `insertAll_of_mem`: a name stays once, and entries that are
    there change nothing when they are inserted again.
  - `names_insertAll_empty`, `entries_insert_of_contains`: names stand in the order in which
    they came first, and an entry is replaced where it stands.
  - `insertion_ordered`: so a store is a map in the order of first inserts.
-/

import LineMatch.Matching.Cost
import Mathlib.Data.Finset.Card

namespace LineMatch.Store

variable {s : Store} {p : Param} {value name : String} {e : Entry} {xs : List (Param × String)}

def insertAll (s : Store) (xs : List (Param × String)) : Store :=
  xs.foldl (fun s x => s.insert x.1 x.2) s

/-- The entries of a sequence of inserts. -/
def entriesOf (xs : List (Param × String)) : List Entry := xs.map fun x => ⟨x.1, x.2⟩

theorem insertAll_append (s : Store) (xs ys : List (Param × String)) :
    s.insertAll (xs ++ ys) = (s.insertAll xs).insertAll ys :=
  List.foldl_append

theorem insertAll_concat (s : Store) (xs : List (Param × String)) (x : Param × String) :
    s.insertAll (xs ++ [x]) = (s.insertAll xs).insert x.1 x.2 :=
  insertAll_append s xs [x]

theorem contains_insertAll :
    (s.insertAll xs).contains name = true ↔ (∃ x ∈ xs, x.1.name = name) ∨ s.contains name = true := by
  induction xs generalizing s with
  | nil => simp [insertAll]
  | cons x xs ih =>
    show ((s.insert x.1 x.2).insertAll xs).contains name = true ↔ _
    rw [ih, contains_insert]
    simp only [List.mem_cons, or_and_right, exists_or, exists_eq_left, eq_comm (a := name)]
    exact or_left_comm.trans or_assoc.symm

theorem mem_put {d : Entry} {ds : List Entry} (h : e ∈ put d ds) : e = d ∨ e ∈ ds := by
  induction ds with
  | nil => exact .inl (List.mem_singleton.1 h)
  | cons c cs ih =>
    rw [put] at h
    split at h
    · rcases List.mem_cons.1 h with rfl | h
      · exact .inl rfl
      · exact .inr (List.mem_cons_of_mem _ h)
    · rcases List.mem_cons.1 h with rfl | h
      · exact .inr List.mem_cons_self
      · exact (ih h).imp id (List.mem_cons_of_mem _)

theorem mem_insert (h : e ∈ (s.insert p value).entries) : e = ⟨p, value⟩ ∨ e ∈ s.entries := mem_put h

theorem mem_insertAll (h : e ∈ (s.insertAll xs).entries) :
    (∃ x ∈ xs, e = ⟨x.1, x.2⟩) ∨ e ∈ s.entries := by
  induction xs generalizing s with
  | nil => exact .inr h
  | cons x xs ih =>
    rcases ih (s := s.insert x.1 x.2) h with ⟨y, hy, rfl⟩ | h
    · exact .inl ⟨y, List.mem_cons_of_mem _ hy, rfl⟩
    · rcases mem_insert h with rfl | h
      · exact .inl ⟨x, List.mem_cons_self, rfl⟩
      · exact .inr h

/-! ## Looking up -/

theorem find?_put (d : Entry) (ds : List Entry) (name : String) :
    (put d ds).find? (·.name == name) = if d.name = name then some d else ds.find? (·.name == name) := by
  induction ds with
  | nil => by_cases h : d.name = name <;> simp [put, h]
  | cons c cs ih =>
    rw [put]
    by_cases hc : c.name = d.name
    · rw [if_pos hc]
      by_cases h : d.name = name
      · simp [h]
      · simp [h, hc ▸ h]
    · rw [if_neg hc, List.find?_cons, List.find?_cons, ih]
      by_cases h : d.name = name
      · have hne : (c.name == name) = false := beq_false_of_ne fun he => hc (he.trans h.symm)
        simp [h, hne]
      · simp [h]

/-- What is found under a name is what was inserted under it last. -/
theorem find?_insert (s : Store) (p : Param) (value name : String) :
    (s.insert p value).find? name = if p.name = name then some ⟨p, value⟩ else s.find? name :=
  find?_put ⟨p, value⟩ s.entries name

/-- The last of some inserts under a name. -/
def last? (xs : List (Param × String)) (name : String) : Option Entry := (entriesOf xs).findRev? (·.name == name)

theorem last?_eq_none_iff : last? xs name = none ↔ ∀ x ∈ xs, x.1.name ≠ name := by
  rw [last?, List.findRev?_eq_find?_reverse, List.find?_eq_none]
  simp only [List.mem_reverse, entriesOf, List.forall_mem_map, Entry.name, beq_iff_eq, ne_eq]

/-- What is found under a name is the last insert under it, or what was there before. -/
theorem find?_insertAll (s : Store) (xs : List (Param × String)) (name : String) :
    (s.insertAll xs).find? name = (last? xs name).or (s.find? name) := by
  induction xs using List.reverseRecOn with
  | nil => rfl
  | append_singleton xs x ih =>
    have hlast : last? (xs ++ [x]) name = if x.1.name = name then some ⟨x.1, x.2⟩ else last? xs name := by
      by_cases h : x.1.name = name <;> simp [last?, entriesOf, Entry.name, h]
    rw [insertAll_concat, find?_insert, hlast]
    split
    · rfl
    · exact ih

theorem value?_insertAll_of_ne (h : ∀ x ∈ xs, x.1.name ≠ name) : (s.insertAll xs).value? name = s.value? name := by
  rw [value?, find?_insertAll, last?_eq_none_iff.2 h, Option.none_or, value?]

/-! ## Adding at the end -/

theorem put_of_new {d : Entry} {ds : List Entry} (h : d.name ∉ ds.map Entry.name) : put d ds = ds ++ [d] := by
  induction ds with
  | nil => rfl
  | cons c cs ih =>
    rw [List.map_cons, List.mem_cons, not_or] at h
    rw [put, if_neg (Ne.symm h.1), ih h.2, List.cons_append]

theorem not_contains_iff : s.contains name = false ↔ name ∉ s.names := by
  rw [← Bool.not_eq_true, contains_iff]

theorem names_put_of_mem {d : Entry} {ds : List Entry} (h : d.name ∈ ds.map Entry.name) :
    (put d ds).map Entry.name = ds.map Entry.name := by
  induction ds with
  | nil => cases h
  | cons c cs ih =>
    rw [put]
    split
    · next he => rw [List.map_cons, List.map_cons, he]
    · next hne =>
      rw [List.map_cons, List.mem_cons] at h
      rw [List.map_cons, ih (h.resolve_left fun he => hne he.symm), List.map_cons]

theorem entries_insert_of_new (h : s.contains p.name = false) :
    (s.insert p value).entries = s.entries ++ [⟨p, value⟩] :=
  put_of_new (not_contains_iff.1 h)

theorem names_insert_append (h : s.contains p.name = false) (names : List String) :
    (s.insert p value).names ++ names = s.names ++ p.name :: names := by
  rw [Store.names, entries_insert_of_new h, List.map_append, List.append_assoc]
  rfl

theorem new_of_nodup {names : List String} (h : (s.names ++ name :: names).Nodup) : s.contains name = false := by
  rw [not_contains_iff]
  intro hold
  exact (List.nodup_append.1 h).2.2 _ hold _ List.mem_cons_self rfl

theorem names_insert_of_contains (h : s.contains p.name = true) : (s.insert p value).names = s.names :=
  names_put_of_mem (contains_iff.1 h)

theorem size_insert_of_contains (h : s.contains p.name = true) : (s.insert p value).size = s.size := by
  simpa [names, size] using congrArg List.length (names_insert_of_contains h)

theorem size_insert_le (s : Store) (p : Param) (value : String) : (s.insert p value).size ≤ s.size + 1 := by
  rcases h : s.contains p.name with _ | _
  · simp [size, entries_insert_of_new h]
  · rw [size_insert_of_contains h]
    exact Nat.le_succ _

theorem size_insertAll_le (s : Store) (xs : List (Param × String)) :
    (s.insertAll xs).size ≤ s.size + xs.length := by
  induction xs generalizing s with
  | nil => exact Nat.le_refl _
  | cons x xs ih =>
    have htail := ih (s.insert x.1 x.2)
    have hhead := size_insert_le s x.1 x.2
    rw [List.length_cons]
    exact Nat.le_trans htail (by omega)

/-- Inserts only add entries where their names are new and distinct, and only there. -/
theorem insertAll_appends_iff : (s.insertAll xs).entries = s.entries ++ entriesOf xs ↔
    (xs.map fun x => x.1.name).Nodup ∧ ∀ x ∈ xs, s.contains x.1.name = false := by
  induction xs generalizing s with
  | nil => simp [insertAll, entriesOf]
  | cons x xs ih =>
    have hsplit : s.insertAll (x :: xs) = (s.insert x.1 x.2).insertAll xs := rfl
    rw [hsplit, List.map_cons, List.nodup_cons, List.forall_mem_cons]
    rcases hx : s.contains x.1.name with _ | _
    · have hinsert : s.entries ++ entriesOf (x :: xs) = (s.insert x.1 x.2).entries ++ entriesOf xs := by
        simp [entries_insert_of_new hx, entriesOf]
      have hnew : ∀ y : Param × String, (s.insert x.1 x.2).contains y.1.name = false ↔
          y.1.name ≠ x.1.name ∧ s.contains y.1.name = false := fun y => by
        rw [← Bool.not_eq_true, contains_insert, not_or, Bool.not_eq_true]
      rw [hinsert, ih]
      simp only [hnew, forall_and, List.mem_map, not_exists, not_and]
      constructor
      · rintro ⟨hd, hne, hs⟩
        exact ⟨⟨hne, hd⟩, trivial, hs⟩
      · rintro ⟨⟨hne, hd⟩, -, hs⟩
        exact ⟨hd, hne, hs⟩
    · -- an entry is replaced, so in the end there is one too few
      refine ⟨fun h => ?_, fun h => absurd h.2.1 (by simp)⟩
      have hlength := congrArg List.length h
      have hle := size_insertAll_le (s.insert x.1 x.2) xs
      rw [size_insert_of_contains hx] at hle
      simp only [size, entriesOf, List.length_append, List.length_map, List.length_cons] at hlength hle
      omega

/-! ## A name once -/

theorem nodup_names_insert (h : s.names.Nodup) (p : Param) (value : String) : (s.insert p value).names.Nodup := by
  rcases hp : s.contains p.name with _ | _
  · rw [names, entries_insert_of_new hp, List.map_append]
    refine List.nodup_append.2 ⟨h, by simp, fun a ha c hc he => ?_⟩
    have hc : c = p.name := List.mem_singleton.1 hc
    subst he
    exact not_contains_iff.1 hp (hc ▸ ha)
  · rw [names_insert_of_contains hp]
    exact h

theorem nodup_names_insertAll (h : s.names.Nodup) (xs : List (Param × String)) : (s.insertAll xs).names.Nodup := by
  induction xs generalizing s with
  | nil => exact h
  | cons x xs ih => exact ih (nodup_names_insert h x.1 x.2)

theorem put_of_mem {d : Entry} {ds : List Entry} (hn : (ds.map Entry.name).Nodup) (h : d ∈ ds) : put d ds = ds := by
  induction ds with
  | nil => cases h
  | cons c cs ih =>
    rw [List.map_cons, List.nodup_cons] at hn
    rw [put]
    rcases List.mem_cons.1 h with rfl | h
    · rw [if_pos rfl]
    · have hne : c.name ≠ d.name := fun he => hn.1 (he ▸ List.mem_map_of_mem h)
      rw [if_neg hne, ih hn.2 h]

/-- What is there already changes nothing when it is inserted again. -/
theorem insertAll_of_mem (hn : s.names.Nodup) (h : ∀ e ∈ entriesOf xs, e ∈ s.entries) : s.insertAll xs = s := by
  induction xs with
  | nil => rfl
  | cons x xs ih =>
    obtain ⟨hx, hxs⟩ := List.forall_mem_cons.1 h
    have hinsert : s.insert x.1 x.2 = s := congrArg Store.mk (put_of_mem hn hx)
    show (s.insert x.1 x.2).insertAll xs = s
    rw [hinsert]
    exact ih hxs

/-! ## The order of first inserts -/

/-- A name that is there keeps its place: one entry is replaced where it stands. -/
theorem put_of_mem_names {d : Entry} {ds : List Entry} (h : d.name ∈ ds.map Entry.name) :
    put d ds = ds.set ((ds.map Entry.name).idxOf d.name) d := by
  induction ds with
  | nil => cases h
  | cons c cs ih =>
    rw [put, List.map_cons]
    split
    · next he => rw [he, List.idxOf_cons_self, List.set_cons_zero]
    · next hne =>
      have hrest : d.name ∈ cs.map Entry.name := (List.mem_cons.1 h).resolve_left (Ne.symm hne)
      rw [List.idxOf_cons_ne _ hne, List.set_cons_succ, ih hrest]

theorem entries_insert_of_contains (h : s.contains p.name = true) :
    (s.insert p value).entries = s.entries.set (s.names.idxOf p.name) ⟨p, value⟩ :=
  put_of_mem_names (contains_iff.1 h)

/-- Names stand in the order in which they came first. -/
theorem names_insertAll_empty (xs : List (Param × String)) :
    (empty.insertAll xs).names = (xs.map fun x => x.1.name).eraseDups := by
  induction xs using List.reverseRecOn with
  | nil => rfl
  | append_singleton xs x ih =>
    have hmem : (empty.insertAll xs).contains x.1.name = true ↔ x.1.name ∈ xs.map fun x => x.1.name := by
      rw [contains_iff, ih, List.mem_eraseDups]
    rw [insertAll_concat, List.map_append, List.eraseDups_append, ← ih]
    rcases h : (empty.insertAll xs).contains x.1.name with _ | _
    · have hnew : x.1.name ∉ xs.map fun x => x.1.name := by
        rwa [← hmem, Bool.not_eq_true]
      rw [names, entries_insert_of_new h, List.map_append]
      simp [List.removeAll, List.eraseDups_cons, hnew, names, Entry.name]
    · rw [names_insert_of_contains h]
      simp [List.removeAll, hmem.1 h]

/-- A store is a map in the order of first inserts. After any inserts the names are those
    inserted, in the order in which they came first and each once; so there are as many
    entries as distinct names. Under a name stands what was inserted under it last, if
    anything was. Inserting under a name that is there replaces the one entry that has it,
    where it stands. -/
theorem insertion_ordered (xs : List (Param × String)) :
    let s := empty.insertAll xs
    s.names = (xs.map fun x => x.1.name).eraseDups ∧ s.names.Nodup ∧
      s.size = (xs.map fun x => x.1.name).toFinset.card ∧
      (∀ name, s.find? name = last? xs name ∧ s.value? name = (last? xs name).map Entry.value ∧
        (s.contains name = true ↔ ∃ x ∈ xs, x.1.name = name)) ∧
      ∀ p value, s.contains p.name = true →
        (s.insert p value).entries = s.entries.set (s.names.idxOf p.name) ⟨p, value⟩ ∧
          (s.insert p value).names = s.names := by
  intro s
  have hnames : s.names = (xs.map fun x => x.1.name).eraseDups := names_insertAll_empty xs
  have hnodup : s.names.Nodup := nodup_names_insertAll (s := empty) List.nodup_nil xs
  have hsize : s.size = (xs.map fun x => x.1.name).toFinset.card := by
    have hset : (xs.map fun x => x.1.name).toFinset = s.names.toFinset := by
      ext name
      rw [hnames, List.mem_toFinset, List.mem_toFinset, List.mem_eraseDups]
    rw [hset, List.toFinset_card_of_nodup hnodup, names, List.length_map, size]
  have hfind (name : String) : s.find? name = last? xs name :=
    (find?_insertAll empty xs name).trans Option.or_none
  refine ⟨hnames, hnodup, hsize, fun name => ⟨hfind name, ?_, ?_⟩, fun p value h => ⟨?_, ?_⟩⟩
  · rw [value?, hfind]
  · exact contains_insertAll.trans (or_iff_left Bool.false_ne_true)
  · exact entries_insert_of_contains h
  · exact names_insert_of_contains h

/-- Of three inserts the last is under the first name again: it takes that one's place. -/
theorem port_host_ordered :
    let port : Param := { name := "port", type := "UINT" }
    let host : Param := { name := "host", type := "WORD" }
    let again : Param := { name := "port", type := "WORD" }
    let s := empty.insertAll [(port, "22"), (host, "alpha")]
    s.contains again.name = true ∧ (s.insert again "ssh").entries = [⟨again, "ssh"⟩, ⟨host, "alpha"⟩] ∧
      (s.insert again "ssh").find? "port" = some ⟨again, "ssh"⟩ := by
  intro port host again s
  obtain ⟨-, -, -, -, hreplace⟩ := insertion_ordered [(port, "22"), (host, "alpha")]
  obtain ⟨-, -, -, hfind, -⟩ := insertion_ordered [(port, "22"), (host, "alpha"), (again, "ssh")]
  have hcontains : s.contains again.name = true := by decide
  exact ⟨hcontains, (hreplace again "ssh" hcontains).1, (hfind "port").1⟩

end LineMatch.Store
