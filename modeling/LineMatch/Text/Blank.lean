/-
  LineMatch.Text.Blank — the characters that separate words.

  Two sets: the White_Space characters of Unicode, which separate the words of a
  command's name, and the five ASCII blanks, which separate the words of a line.
  `words` cuts a text at any test for blanks.
-/

namespace LineMatch.Text

/-- White_Space. -/
def isBlank (c : Char) : Bool :=
  let n := c.toNat
  (0x9 ≤ n && n ≤ 0xD) || n == 0x20 || n == 0x85 || n == 0xA0 || n == 0x1680 ||
    (0x2000 ≤ n && n ≤ 0x200A) || n == 0x2028 || n == 0x2029 || n == 0x202F || n == 0x205F || n == 0x3000

/-- Space, tab, line feed, form feed and carriage return; not the vertical tab. -/
def isAsciiBlank (c : Char) : Bool :=
  c == ' ' || c == '\t' || c == '\n' || c == '\x0c' || c == '\r'

/-- The first word, cut off where `blank` first holds, and the words after it. -/
def splitWords (blank : Char → Bool) : List Char → List Char × List (List Char)
  | [] => ([], [])
  | c :: cs =>
    let (word, rest) := splitWords blank cs
    if blank c then ([], word :: rest) else (c :: word, rest)

/-- The maximal stretches without a blank. -/
def wordsBy (blank : Char → Bool) (cs : List Char) : List (List Char) :=
  let (word, rest) := splitWords blank cs
  (word :: rest).filter (!·.isEmpty)

/-- The words of a text between White_Space characters. -/
def words (text : String) : List String :=
  (wordsBy isBlank text.toList).map String.ofList

end LineMatch.Text
