import WireModel.Source.Gap

/-!
# Notes about builds

The notes of a file that say for which builds it counts stand together near its top, behind the
comments there and in front of an empty line. If they make one formula they are written anew: first
the formula, then the older form if the file has notes of that kind. A note on an indented line is
moved as it is, and then all are.
-/

namespace WireModel.Source.BuildNote

/-- The comment of a line that is a note. -/
def comment? (line : Text) : Option Text :=
  match line.dropWhile DocText.isPad with
  | b :: t => if b == Comment.buildMark then some t else none
  | [] => none

/-- Whether a line is a note. -/
def isNote (line : Text) : Bool := (comment? line).isSome

/-- Whether a line is a note with a formula. -/
def isFormula (line : Text) : Bool :=
  ((comment? line).bind Constraint.formula?).isSome

/-- Whether a line is a comment behind slashes. -/
def isComment (line : Text) : Bool :=
  isNote line || ("//" : Text).isPrefixOf (line.dropWhile DocText.isPad)

/-- The comment of a note that is not indented. -/
def plain? (line : Text) : Option Text := if DocText.isIndented line then none else comment? line

/-- How many lines stand before the place for notes: up to the last empty line before anything other
than comments behind slashes. `n` lines are known to stand before it, out of `seen`. -/
def placeFrom : (n seen : Nat) → Lines → Nat
  | n, _, [] => n
  | n, seen, l :: ls =>
    if l.all DocText.isPad then placeFrom (seen + 1) (seen + 1) ls
    else if isComment l then placeFrom n (seen + 1) ls
    else n

/-- Where the notes go: at the first of its kind if that stands earlier. -/
def place (lines : Lines) : Nat :=
  let n := placeFrom 0 0 lines
  let first (p : Text → Bool) : Option Nat := (lines.findIdx? p).filter (· < n)
  let formulas := first isFormula
  let others := first fun l => isNote l && !isFormula l
  (formulas.or others).getD n

/-- The formula that notes make together, if they make one. -/
def formula? (formulas others : List Text) : Option Constraint :=
  match formulas with
  | [] => do
    let xs ← others.mapM fun l => (plain? l).bind fun c =>
      (Constraint.wordLine? c).bind Constraint.ofWords?
    Constraint.chain .and xs
  | [l] => (plain? l).bind fun c => (Constraint.formula? c).bind Constraint.ofFormula?
  | _ => none

/-- A line without its mark. -/
def unmark (line : Text) : Text := line.filter (· != Comment.buildMark)

/-- The notes as they are written, and an empty line. -/
def block (formulas others : List Text) : Lines :=
  (match formula? formulas others with
  | none => (formulas ++ others).map unmark
  | some x =>
    let old := (Constraint.wordLines? x).getD
      [Text.ofString "// +build error: expression too complex for // +build lines"]
    ("//go:build " ++ x.text) :: (if others.isEmpty then [] else old)) ++ [[]]

/-- Lines behind others, without an empty line at the start or behind an empty line. -/
def append (xs ys : Lines) : Lines :=
  let doubles := xs.isEmpty || (2 ≤ xs.length && xs.getLast? == some [])
  if ys.head? == some [] && doubles then xs ++ ys.tail else xs ++ ys

/-- The lines without notes. `done` are lines before, `chunk` those since the last note, in
reverse. -/
def dropNotes : (done chunk : Lines) → Lines → Lines
  | done, chunk, [] => append done chunk.reverse
  | done, chunk, l :: ls =>
    if isNote l then dropNotes (append done chunk.reverse) [] ls
    else dropNotes done (l :: chunk) ls

/-- The lines of a file with its notes in their place. -/
def arrange (lines : Lines) : Lines :=
  let notes := lines.filter isNote
  if notes.isEmpty then lines
  else
    let n := place lines
    let formulas := notes.filter isFormula
    let others := notes.filter (!isFormula ·)
    (lines.take n).map unmark ++ block formulas others ++ dropNotes [] [] (lines.drop n)

end WireModel.Source.BuildNote
