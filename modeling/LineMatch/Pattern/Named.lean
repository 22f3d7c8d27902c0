/-
  LineMatch.Pattern.Named — the classes that the names of properties stand for, by Unicode 16.

  A property is named alone (`\p{Emoji}`, `\p{Greek}`, `\pL`), which is one that a character
  has or has not, a general category or a script, or it is given with a value (`\p{gc=Lu}`,
  `\p{Script: Greek}`, `\p{Age=6.0}`). Names are compared in small letters, without blanks,
  hyphens, underscores and a leading `is`.
-/

import LineMatch.Pattern.Age
import LineMatch.Pattern.Extension
import LineMatch.Pattern.Segment

namespace LineMatch.Pattern.Named

open LineMatch.Pattern.Class (categories)

/-- What of a name is compared. -/
def plainChars (cs : List Char) : List Char :=
  (cs.filter fun c => c.toNat < 0x80 && c != ' ' && c != '_' && c != '-').map Char.toLower

/-- A name as it is compared. A name of its own is `isc`. -/
def plainName (cs : List Char) : String :=
  if String.ofList ((cs.take 2).map Char.toLower) == "is" then
    let name := String.ofList (plainChars (cs.drop 2))
    if name == "c" then "isc" else name
  else String.ofList (plainChars cs)

def categoryNames : List (List String × Class) :=
  [(["any"], .property .any), (["assigned"], .property .assigned), (["ascii"], .range '\x00' '\x7f'),
   (["c", "other"], categories [.cc, .cf, .cs, .co, .cn]), (["cc", "control", "cntrl"], categories [.cc]),
   (["cf", "format"], categories [.cf]), (["cn", "unassigned"], categories [.cn]),
   (["co", "privateuse"], categories [.co]), (["l", "letter"], categories [.lu, .ll, .lt, .lm, .lo]),
   (["lc", "casedletter"], categories [.lu, .ll, .lt]), (["ll", "lowercaseletter"], categories [.ll]),
   (["lm", "modifierletter"], categories [.lm]), (["lo", "otherletter"], categories [.lo]),
   (["lt", "titlecaseletter"], categories [.lt]), (["lu", "uppercaseletter"], categories [.lu]),
   (["m", "mark", "combiningmark"], categories [.mn, .mc, .me]), (["mc", "spacingmark"], categories [.mc]),
   (["me", "enclosingmark"], categories [.me]), (["mn", "nonspacingmark"], categories [.mn]),
   (["n", "number"], categories [.nd, .nl, .no]), (["nd", "decimalnumber", "digit"], categories [.nd]),
   (["nl", "letternumber"], categories [.nl]), (["no", "othernumber"], categories [.no]),
   (["p", "punctuation", "punct"], categories [.pc, .pd, .ps, .pe, .pi, .pf, .po]),
   (["pc", "connectorpunctuation"], categories [.pc]), (["pd", "dashpunctuation"], categories [.pd]),
   (["pe", "closepunctuation"], categories [.pe]), (["pf", "finalpunctuation"], categories [.pf]),
   (["pi", "initialpunctuation"], categories [.pi]), (["po", "otherpunctuation"], categories [.po]),
   (["ps", "openpunctuation"], categories [.ps]), (["s", "symbol"], categories [.sm, .sc, .sk, .so]),
   (["sc", "currencysymbol"], categories [.sc]), (["sk", "modifiersymbol"], categories [.sk]),
   (["sm", "mathsymbol"], categories [.sm]), (["so", "othersymbol"], categories [.so]),
   (["z", "separator"], categories [.zs, .zl, .zp]), (["zl", "lineseparator"], categories [.zl]),
   (["zp", "paragraphseparator"], categories [.zp]), (["zs", "spaceseparator"], categories [.zs])]

/-- The class that one of the names stands for. -/
def find? (names : List (List String × Class)) (name : String) : Option Class :=
  (names.find? fun entry => entry.1.contains name).map Prod.snd

def script? (name : String) : Option Class := (WritingSystem.codes.lookup name).map fun code => .property (.script code)

/-- The class a name alone stands for. -/
def alone? (cs : List Char) : Option Class :=
  let name := plainName cs
  (find? Binary.names name).or ((find? categoryNames name).or (script? name))

/-- The class of a property with a given value. -/
def valued? (property value : List Char) : Option Class :=
  let value := plainName value
  match plainName property with
  | "generalcategory" | "gc" => find? categoryNames value
  | "script" | "sc" => script? value
  | "scriptextensions" | "scx" => (WritingSystem.codes.lookup value).map Extension.usedIn
  | "age" => Age.upTo? value
  | "graphemeclusterbreak" | "gcb" => find? Segment.clusterNames value
  | "wordbreak" | "wb" => find? Segment.wordNames value
  | "sentencebreak" | "sb" => find? Segment.sentenceNames value
  | _ => none

end LineMatch.Pattern.Named
