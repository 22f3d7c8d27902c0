/-
  LineMatch.Store — the values a match has recorded, in order.

  An entry is a parameter with its value. A name occurs at most once: `insert` puts the
  new parameter and value in the place of the entry of that name, or at the end where
  there is none.
-/

import LineMatch.Grammar.Basic
import LineMatch.Json.Value

namespace LineMatch

structure Entry where
  param : Param
  value : String
  deriving Repr, Inhabited

def Entry.name (e : Entry) : String := e.param.name

structure Store where
  entries : List Entry := []
  deriving Repr, Inhabited

namespace Store

def empty : Store := ⟨[]⟩

/-- Replaces the first entry with the name of `e`, or adds `e` at the end. -/
def put (e : Entry) : List Entry → List Entry
  | [] => [e]
  | d :: ds => if d.name = e.name then e :: ds else d :: put e ds

def insert (s : Store) (p : Param) (value : String) : Store := ⟨put ⟨p, value⟩ s.entries⟩

def find? (s : Store) (name : String) : Option Entry := s.entries.find? (·.name == name)

def value? (s : Store) (name : String) : Option String := (s.find? name).map Entry.value

def contains (s : Store) (name : String) : Bool := (s.find? name).isSome

def names (s : Store) : List String := s.entries.map Entry.name

def size (s : Store) : Nat := s.entries.length

def isEmpty (s : Store) : Bool := s.entries.isEmpty

/-! ## As JSON -/

open LineMatch.Json (Value)

def entryJson (e : Entry) : Value :=
  .object [("name", .string e.name), ("value", .string e.value), ("help", .orNull e.param.help)]

def toJson (s : Store) : Value := .array (s.entries.map entryJson)

end Store

end LineMatch
