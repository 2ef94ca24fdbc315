import WireModel.Text.Rune

/-!
# Plurals

English plurals by a list of endings, tried in order. An entry replaces an ending, or a whole word
where the ending alone would catch too much. A word that no entry fits takes an `s`.
-/

namespace WireModel.Naming

/-- How an ending forms its plural. -/
structure PluralRule where
  ending : Text
  plural : Text
  /-- The rule is for the word itself, not for words that end so. -/
  wholeWord : Bool := false

namespace PluralRule

/-- A rule for an ending. -/
def suffix (ending plural : String) : PluralRule := { ending, plural }

/-- A rule for an ending that is a plural already. -/
def same (ending : String) : PluralRule := { ending, plural := ending }

/-- A rule for one word. -/
def word (word plural : String) : PluralRule := { ending := word, plural, wholeWord := true }

/-- The plural of a word by a rule that fits it. -/
def pluralOf? (r : PluralRule) (t : Text) : Option Text :=
  if r.wholeWord then (if t == r.ending then some r.plural else none)
  else (Text.stripEnd? r.ending t).map (· ++ r.plural)

end PluralRule

/-- Words that have no plural. -/
def uncountable : List Text :=
  ["equipment", "information", "rice", "money", "species", "series", "fish", "sheep", "jeans",
    "police"]

/-- The consonants after which a final `y` changes. -/
def consonantsBeforeY : List Char := "zxwvtsrqpnmlkjhgfdcb".toList

/-- The letters after which a final `fe` changes. -/
def lettersBeforeFe : List Char := "abcdeghijklmnopqrstuvwxyz".toList

/-- All rules, in the order in which they are tried. -/
def pluralRules : List PluralRule :=
  ([.same "zombies", .suffix "zombie" "zombies", .same "moves", .suffix "move" "moves",
    .same "sexes", .suffix "sex" "sexes", .same "children", .suffix "child" "children",
    .same "men", .suffix "man" "men", .same "people", .suffix "person" "people",
    .word "quiz" "quizzes", .word "oxen" "oxen", .word "ox" "oxen",
    .same "lice", .same "mice", .suffix "louse" "lice", .suffix "mouse" "mice",
    .suffix "index" "indices", .suffix "vertex" "vertices", .suffix "matrex" "matrices",
    .suffix "indix" "indices", .suffix "vertix" "vertices", .suffix "matrix" "matrices",
    .suffix "sh" "shes", .suffix "ss" "sses", .suffix "ch" "ches",
    .suffix "x" "xes"] : List PluralRule) ++
  consonantsBeforeY.map (fun c =>
    PluralRule.suffix (String.ofList [c, 'y']) (String.ofList [c, 'i', 'e', 's'])) ++
  ([.suffix "quy" "quies", .suffix "hive" "hives"] : List PluralRule) ++
  lettersBeforeFe.map (fun c =>
    PluralRule.suffix (String.ofList [c, 'f', 'e']) (String.ofList [c, 'v', 'e', 's'])) ++
  ([.suffix "rf" "rves", .suffix "lf" "lves", .suffix "sis" "ses", .same "ia", .same "ta",
    .suffix "ium" "ia", .suffix "tum" "ta", .suffix "tomato" "tomatoes",
    .suffix "buffalo" "buffaloes", .suffix "bus" "buses", .suffix "status" "statuses",
    .suffix "alias" "aliases", .same "viri", .same "octopi", .suffix "virus" "viri",
    .suffix "octopus" "octopi", .suffix "axis" "axes", .suffix "testis" "testes",
    .same "s"] : List PluralRule)

/-- The plural of a lower case word or of the last of several words. -/
def pluralize (t : Text) : Text :=
  if t == [] then t
  else if uncountable.contains ((t.splitOn ' '.toUInt8).getLastD []) then t
  else (pluralRules.findSome? (·.pluralOf? t)).getD (t ++ "s")

end WireModel.Naming
