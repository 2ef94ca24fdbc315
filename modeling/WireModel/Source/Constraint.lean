import WireModel.Text.Rune
import WireModel.Text.Letter

/-!
# Build constraints

A comment may say for which builds a file counts. There are two ways to write it: a formula of tags
with the usual connectives, and an older one in lines of words, where a line holds if one of its
words does, a word holds if all its tags between commas do, and all lines must hold.

`Constraint.ofFormula?` and `Constraint.ofWords?` read the two, `Constraint.text` writes the first
and `Constraint.wordLines?` the second.
-/

namespace WireModel.Source

/-- A formula over tags. -/
inductive Constraint where
  | tag (t : Text)
  | not (x : Constraint)
  | and (x y : Constraint)
  | or (x y : Constraint)
  deriving DecidableEq, Inhabited

namespace Constraint

/-! ## Writing a formula -/

/-- A conjunction. -/
def isAnd : Constraint → Bool
  | and _ _ => true
  | _ => false

/-- A disjunction. -/
def isOr : Constraint → Bool
  | or _ _ => true
  | _ => false

/-- A text in brackets where it needs them. -/
def bracket (needed : Bool) (t : Text) : Text := if needed then "(" ++ t ++ ")" else t

/-- A formula as it is written: negation binds most, and a conjunction and a disjunction are
bracketed inside each other. -/
def text : Constraint → Text
  | tag t => t
  | not x => "!" ++ bracket (x.isAnd || x.isOr) x.text
  | and x y => bracket x.isOr x.text ++ " && " ++ bracket y.isOr y.text
  | or x y => bracket x.isAnd x.text ++ " || " ++ bracket y.isAnd y.text

/-! ## Reading a formula -/

/-- A rune of a tag. -/
def isTagRune (r : Rune) : Bool :=
  let c := r.codePoint
  Text.isLetterRune c || Text.isDigitRune c || c == '_'.toNat || c == '.'.toNat

/-- A word of a formula. -/
inductive Word where
  | name (t : Text)
  | mark (t : Text)
  deriving DecidableEq, Inhabited

/-- The words of a formula; `none` where a text is no word. -/
def words : (fuel : Nat) → Text → List (Option Word)
  | 0, _ => []
  | _ + 1, [] => []
  | fuel + 1, b :: bs =>
    let t := b :: bs
    let name : Text := Text.ofRunes ((Text.runes t).takeWhile isTagRune)
    if b == ' '.toUInt8 || b == '\t'.toUInt8 then words fuel bs
    else if b == '('.toUInt8 || b == ')'.toUInt8 || b == '!'.toUInt8 then
      some (.mark [b]) :: words fuel bs
    else if ("&&" : Text).isPrefixOf t || ("||" : Text).isPrefixOf t then
      some (.mark (t.take 2)) :: words fuel (t.drop 2)
    else if name.isEmpty then [none]
    else some (.name name) :: words fuel (t.drop name.length)

/-- The greatest number of tags and brackets in a formula. -/
def maxSize : Nat := 1000

/-- The state of a reader: how many more operands a formula may have, and the words left. -/
abbrev Reading := Nat × List (Option Word)

mutual

/-- A disjunction. -/
def readOr? : (fuel : Nat) → Reading → Option (Constraint × Reading)
  | 0, _ => none
  | fuel + 1, r => do
    let (x, r) ← readAnd? fuel r
    moreOr? fuel x r

/-- The further parts of a disjunction. -/
def moreOr? : (fuel : Nat) → Constraint → Reading → Option (Constraint × Reading)
  | 0, _, _ => none
  | fuel + 1, x, (n, ws) =>
    if ws.head? == some (some (.mark "||")) then do
      let (y, r) ← readAnd? fuel (n, ws.tail)
      moreOr? fuel (or x y) r
    else if ws.head? == some none then none
    else some (x, n, ws)

/-- A conjunction. -/
def readAnd? : (fuel : Nat) → Reading → Option (Constraint × Reading)
  | 0, _ => none
  | fuel + 1, r => do
    let (x, r) ← readNot? fuel r
    moreAnd? fuel x r

/-- The further parts of a conjunction. -/
def moreAnd? : (fuel : Nat) → Constraint → Reading → Option (Constraint × Reading)
  | 0, _, _ => none
  | fuel + 1, x, (n, ws) =>
    if ws.head? == some (some (.mark "&&")) then do
      let (y, r) ← readNot? fuel (n, ws.tail)
      moreAnd? fuel (and x y) r
    else if ws.head? == some none then none
    else some (x, n, ws)

/-- An operand, negated once at most. -/
def readNot? : (fuel : Nat) → Reading → Option (Constraint × Reading)
  | 0, _ => none
  | _ + 1, (0, _) => none
  | fuel + 1, (n + 1, ws) =>
    if ws.head? == some (some (.mark "!")) then
      (readAtom? fuel (n, ws.tail)).map fun (x, r) => (not x, r)
    else readAtom? fuel (n, ws)

/-- A tag, or a formula in brackets. -/
def readAtom? : (fuel : Nat) → Reading → Option (Constraint × Reading)
  | 0, _ => none
  | fuel + 1, (n, ws) =>
    match ws with
    | some (.name t) :: rest => if rest.head? == some none then none else some (tag t, n, rest)
    | some (.mark m) :: rest =>
      if m == "(" then do
        let (x, n, ws) ← readOr? fuel (n, rest)
        match ws with
        | some (.mark c) :: rest =>
          if c == ")" && rest.head? != some none then pure (x, n, rest) else none
        | _ => none
      else none
    | _ => none

end

/-- The formula a text starts with. What follows a whole formula is not looked at, unless it is no
word at all. -/
def ofFormula? (t : Text) : Option Constraint :=
  let ws := words (t.length + 1) t
  (readOr? (8 * (ws.length + 1)) (maxSize, ws)).map (·.1)

/-! ## Lines of words -/

/-- Whether a text is a tag. -/
def isTag (t : Text) : Bool := !t.isEmpty && t.runes.all isTagRune

/-- A tag of a word, negated if an exclamation mark stands before it. What is no tag is the tag that
no build has. -/
def ofLiteral (t : Text) : Constraint :=
  let known (t : Text) : Constraint := if isTag t then tag t else tag "ignore"
  if ("!!" : Text).isPrefixOf t || t == "!" then tag "ignore"
  else
    match Text.stripStart? "!" t with
    | some t => not (known t)
    | none => known t

/-- A chain of formulas. -/
def chain (op : Constraint → Constraint → Constraint) : List Constraint → Option Constraint
  | [] => none
  | x :: xs => some (xs.foldl op x)

/-- The greatest number of connectives in a line of words. -/
def maxWordSize : Nat := 100

/-- A line of words as a formula, if it is not too long. -/
def ofWords? (t : Text) : Option Constraint :=
  let clauses := (t.fieldsBy Rune.isBlank).map fun w => (w.splitOn ','.toUInt8).map ofLiteral
  let size := (clauses.map List.length).foldr (· + ·) 0
  if maxWordSize + 1 < size then none
  else some ((chain or (clauses.filterMap (chain and))).getD (tag "ignore"))

/-- A formula with its negations at the tags. -/
def pushNot : (negated : Bool) → Constraint → Constraint
  | false, tag t => tag t
  | true, tag t => not (tag t)
  | negated, not x => pushNot (!negated) x
  | false, and x y => and (pushNot false x) (pushNot false y)
  | true, and x y => or (pushNot true x) (pushNot true y)
  | false, or x y => or (pushNot false x) (pushNot false y)
  | true, or x y => and (pushNot true x) (pushNot true y)

/-- The parts of a conjunction. -/
def conjuncts : Constraint → List Constraint
  | and x y => conjuncts x ++ conjuncts y
  | x => [x]

/-- The parts of a disjunction. -/
def disjuncts : Constraint → List Constraint
  | or x y => disjuncts x ++ disjuncts y
  | x => [x]

/-- The tag of a literal as it is written. -/
def literal? : Constraint → Option Text
  | and _ _ | or _ _ => none
  | x => some x.text

/-- The lines of words of a formula: the parts of a conjunction of disjunctions of words. A formula
without disjunctions has one line. `none` if the formula goes deeper. -/
def wordLines? (x : Constraint) : Option (List Text) := do
  let parts ← (conjuncts (pushNot false x)).mapM fun c =>
    (disjuncts c).mapM fun w => (conjuncts w).mapM literal?
  let parts := if parts.all (·.length ≤ 1) then [[parts.flatten.flatten]] else parts
  pure (parts.map fun ws =>
    ws.foldl (fun line w => line ++ " " ++ Text.join "," w) (Text.ofString "// +build"))

/-! ## Comments -/

/-- The text after a word that ends there or is followed by white space. -/
def afterWord? (word : Text) (t : Text) : Option Text := do
  let rest ← Text.stripStart? word t
  let trimmed := rest.trim
  if !rest.isEmpty && trimmed.length == rest.length then none else some trimmed

/-- The formula in a comment that gives one. -/
def formula? (comment : Text) : Option Text :=
  if ("//go:build" : Text).isPrefixOf comment then afterWord? "//go:build" comment.trim else none

/-- The words in a comment that gives some. -/
def wordLine? (comment : Text) : Option Text :=
  (Text.stripStart? "//" comment).bind fun t => afterWord? "+build" t.trim

end Constraint

end WireModel.Source
