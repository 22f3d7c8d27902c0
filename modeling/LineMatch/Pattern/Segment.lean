/-
  LineMatch.Pattern.Segment — what a character does at the edges of clusters, words and sentences.

  Each character has a class for the edges of clusters, one for words and one for sentences,
  by Unicode 16, or it has none. `clusterNames`, `wordNames` and `sentenceNames` have the
  classes for each name a pattern may use, in small letters without separators.
-/

import LineMatch.Pattern.Binary

namespace LineMatch.Pattern.Segment

open LineMatch.Pattern.Class (categories listed)
open Binary (emojiModifier extend ideographic ignorable prepended regional sentenceEnd)
open LineMatch.Text

def hebrew : Class := .inter (.property (.script "Hebr")) (categories [.lo])

/-! ## Clusters -/

/-- Syllables of Hangul without a last consonant. -/
def openSyllable : Class := .property (.listed ((List.range 399).map fun i => (0xAC00 + 28 * i, 0xAC00 + 28 * i)))

def control : Class :=
  (categories [.zl, .zp, .cc, .cf] ∪ .inter ignorable (categories [.cn])) \
    (listed ["A D 200C-200D"] ∪ prepended ∪ extend)

def spacing : Class :=
  (categories [.mc] ∪ listed ["E33 EB3"]) \ (extend ∪ emojiModifier ∪
    listed ["102B-102C 1038 1062-1064 1067-106D 1083 1087-108C 108F 109A-109C 1A61 1A63-1A64 AA7B AA7D",
     "11720-11721"])

def clusterNames : List (List String × Class) :=
  [(["cr"], .one '\r'), (["lf"], .one '\n'), (["control", "cn"], control),
   (["extend", "ex"], extend ∪ emojiModifier), (["zwj"], listed ["200D"]), (["regionalindicator", "ri"], regional),
   (["prepend", "pp"],
     prepended ∪ listed ["D4E 111C2-111C3 113D1 1193F 11941 11A3A 11A84-11A89 11D46 11F02"]),
   (["spacingmark", "sm"], spacing), (["l"], listed ["1100-115F A960-A97C"]),
   (["v"], listed ["1160-11A7 D7B0-D7C6 16D63 16D67-16D6A"]), (["t"], listed ["11A8-11FF D7CB-D7FB"]),
   (["lv"], openSyllable), (["lvt"], listed ["AC00-D7A3"] \ openSyllable)]

/-! ## Words -/

def wordExtend : Class := (extend ∪ categories [.mc] ∪ emojiModifier) \ listed ["200D"]

/-- Digits, and the marks put before them. -/
def numeric : Class := categories [.nd] ∪ listed ["66B"] ∪ (prepended \ listed ["70F"])

def wordFormat : Class := categories [.cf] \ (listed ["200B-200D"] ∪ prepended ∪ wordExtend)

def katakana : Class := .union (.property (.script "Kana")) (listed ["3031-3035 309B-309C 30A0 30FC FF70"])

/-- The scripts that are written without blanks between words. -/
def unspaced : Class :=
  ["Thai", "Laoo", "Khmr", "Mymr", "Tale", "Talu", "Lana", "Tavt", "Ahom"].foldr
    (fun code k => .union (.property (.script code)) k) .nothing

def wordLetter : Class :=
  (.union (.property .alphabetic)
    (listed ["B8 2C2-2C5 2D2-2D7 2DE-2DF 2E5-2EB 2ED 2EF-2FF 55A-55C 55E 58A 5F3 70F A708-A716 A720-A721",
      "A789-A78A AB5B"])) \
    (ideographic ∪ katakana ∪ .property (.script "Hira") ∪ wordExtend ∪ hebrew ∪ unspaced)

def wordNames : List (List String × Class) :=
  [(["cr"], .one '\r'), (["lf"], .one '\n'), (["newline", "nl"], listed ["B-C 85 2028-2029"]),
   (["extend"], wordExtend), (["zwj"], listed ["200D"]), (["regionalindicator", "ri"], regional),
   (["format", "fo"], wordFormat), (["katakana", "ka"], katakana), (["hebrewletter", "hl"], hebrew),
   (["aletter", "le"], wordLetter), (["numeric", "nu"], numeric), (["singlequote", "sq"], listed ["27"]),
   (["doublequote", "dq"], listed ["22"]),
   (["midletter", "ml"], listed ["3A B7 387 55F 5F4 2027 FE13 FE55 FF1A"]),
   (["midnum", "mn"], listed ["2C 3B 37E 589 60C-60D 66C 7F8 2044 FE10 FE14 FE50 FE54 FF0C FF1B"]),
   (["midnumlet", "mb"], listed ["2E 2018-2019 2024 FE52 FF07 FF0E"]),
   (["extendnumlet", "ex"], listed ["5F 202F 203F-2040 2054 FE33-FE34 FE4D-FE4F FF3F"]),
   (["wsegspace"], listed ["20 1680 2000-2006 2008-200A 205F 3000"])]

/-! ## Sentences -/

def sentenceExtend : Class := extend ∪ categories [.mc] ∪ listed ["200D"]

def sentenceNumeric : Class := numeric ∪ listed ["66C"]

def sentenceFormat : Class := categories [.cf] \ (sentenceExtend ∪ (prepended \ listed ["70F"]))

/-- Georgian letters take no part in the case of sentences. -/
def sentenceLower : Class := .diff (.property .small) (extend ∪ listed ["10D0-10FA 10FD-10FF"])

def sentenceUpper : Class := .diff (.union (categories [.lt]) (.property .capital)) (listed ["1C90-1CBA 1CBD-1CBF"])

def sentenceLetter : Class :=
  .diff (.union (.property .alphabetic) (listed ["5F3"])) (sentenceLower ∪ sentenceUpper ∪ sentenceExtend)

def fullStop : Class := listed ["2E 2024 FE52 FF0E"]

def closing : Class :=
  categories [.ps, .pe, .pi, .pf] ∪ listed ["22 27 275B-2760 2E00-2E01 2E06-2E08 2E0B 1F676-1F678"]

def sentenceNames : List (List String × Class) :=
  [(["cr"], .one '\r'), (["lf"], .one '\n'), (["sep", "se"], listed ["85 2028-2029"]),
   (["sp"], listed ["9 B-C 20 A0 1680 2000-200A 202F 205F 3000"]), (["extend", "ex"], sentenceExtend),
   (["format", "fo"], sentenceFormat), (["lower", "lo"], sentenceLower), (["upper", "up"], sentenceUpper),
   (["oletter", "le"], sentenceLetter), (["numeric", "nu"], sentenceNumeric), (["aterm", "at"], fullStop),
   (["sterm", "st"], sentenceEnd \ fullStop), (["close", "cl"], closing),
   (["scontinue", "sc"],
     listed ["2C-2D 3A-3B 37E 55D 60C-60D 7F8 1802 1808 2013-2014 3001 FE10-FE11 FE13-FE14 FE31-FE32 FE50-FE51",
      "FE54-FE55 FE58 FE63 FF0C-FF0D FF1A-FF1B FF64"])]

end LineMatch.Pattern.Segment
