import WireModel.Source.Comment
import WireModel.Source.Constraint
import WireModel.Source.DocText

/-!
# Forms of comments

A group of comments right in front of a declaration is a documentation text and has a usual form;
notes to tools in it come last. Any other comment keeps its text. A block comment that is moved to
the right takes its lines along.

A note about builds will be moved to the top of its file. It is marked by a byte that no text of a
file holds.
-/

namespace WireModel.Source.Comment

/-- A line without the white space at its end. -/
def trimEnd (t : Text) : Text := Text.ofRunes (t.runes.reverse.dropWhile Rune.isBlank).reverse

/-! ## Documentation texts -/

/-- Whether the text after two slashes is a note to a tool: a word, a colon and something more, or
one of a few words. -/
def isDirective (t : Text) : Bool :=
  (List.map Text.ofString ["line ", "extern ", "export "]).any (·.isPrefixOf t) ||
  match t.cut? ':'.toUInt8 with
  | some (w, r) =>
    let ok (b : UInt8) : Bool := Text.isLower b || Text.isDigit b
    !w.isEmpty && w.all ok && r.head?.any ok
  | none => false

/-- The lines of a text that ends with a line end, or with a line that has none. -/
def linesOf (t : Text) : List Text :=
  let ls := t.splitOn '\n'.toUInt8
  if ls.getLast? == some [] then ls.dropLast else ls

/-- The usual form of comments behind slashes: a text, and notes to tools behind it. -/
def docSlashes (texts : List Text) : List Text :=
  let bodies : List Text := texts.map (·.drop 2)
  let words := bodies.filter (!isDirective ·)
  let notes := (bodies.filter isDirective).map fun b => ("//" : Text) ++ b
  let line (l : Text) : Text :=
    if l.isEmpty || l.head? == some '\t'.toUInt8 then "//" ++ l else "// " ++ l
  if words.isEmpty then notes
  else
    let text := DocText.format ((words.map fun b => (Text.stripStart? " " b).getD b) ++ [[]])
    (linesOf text).map line ++ (if notes.isEmpty then [] else Text.ofString "//" :: notes)

/-- Whether every line of a block comment after the first starts with a star. -/
def allStars (lines : List Text) : Bool :=
  lines.tail.all fun l => (l.dropWhile DocText.isPad).head? == some '*'.toUInt8

/-- The usual form of a block comment. -/
def docBlock (text : Text) : Text :=
  let lines := text.splitOn '\n'.toUInt8
  if lines.length ≤ 1 || allStars lines then text
  else
    let body : Text := (text.drop 2).take (text.length - 4)
    "/*\n" ++ DocText.format (body.splitOn '\n'.toUInt8) ++ "*/"

/-- A group of comments in the usual form of a documentation text. What is rewritten stands where the
group starts; notes alone, and comments of both kinds, stay where they are. -/
def docForm : List Piece → List Piece
  | [] => []
  | p :: ps =>
    if p.isBlock then (if ps.isEmpty then [{ p with text := docBlock p.text }] else p :: ps)
    else if (p :: ps).any (·.isBlock) || (p :: ps).all (fun q => isDirective (q.text.drop 2)) then
      p :: ps
    else (docSlashes ((p :: ps).map (·.text))).map fun t => { p with text := t }

/-! ## Margins -/

/-- The common white space and stars at the start of two lines. -/
def commonMargin : Text → Text → Text
  | a :: as, b :: bs =>
    if a == b && (a ≤ ' '.toUInt8 || a == '*'.toUInt8) then a :: commonMargin as bs else []
  | _, _ => []

/-- A margin without up to three blanks, or without a tab, at its end. -/
def keepIndent (margin : Text) : Text :=
  let rev := margin.reverse
  let blanks := (rev.takeWhile (· == ' '.toUInt8)).length
  if blanks > 0 then (rev.drop (min blanks 3)).reverse
  else
    match rev with
    | b :: r => if b == '\t'.toUInt8 then r.reverse else margin
    | [] => margin

/-- The lines of a block comment without the margin its inner lines share. Text keeps a small
indentation against the marks, and a closing mark on a line of its own stands below the opening
one. -/
def stripMargin (lines : List Text) : List Text :=
  match lines with
  | [] | [_] => lines
  | first :: rest =>
    let inner := rest.dropLast.map fun l => if l.all (· ≤ ' '.toUInt8) then [] else l
    let last := rest.getLastD []
    let texts := inner.filter (!·.isEmpty)
    let margin := match texts with
      | [] => commonMargin last last
      | t :: ts => ts.foldl commonMargin (commonMargin t t)
    let starred := margin.contains '*'.toUInt8
    let margin : Text :=
      if starred then
        let before : Text := margin.takeWhile (· != '*'.toUInt8)
        (Text.stripEnd? " " before).getD before
      else if (first.drop 2).all (· ≤ ' '.toUInt8) then keepIndent margin
      else
        let gap : Text := (first.drop 2).takeWhile (· ≤ ' '.toUInt8)
        let suffix : Text := if gap.head? == some '\t'.toUInt8 then gap else "  " ++ gap
        (Text.stripEnd? suffix margin).getD margin
    let lead : Text := last.take (last.length - 2)
    let closes := lead.all (· ≤ ' '.toUInt8)
    let margin := if closes then margin else commonMargin margin last
    let last : Text :=
      if closes then (if starred then " */" else "*/") else last.drop margin.length
    first :: (inner.map fun l => l.drop (min margin.length l.length)) ++ [last]

/-! ## Lines -/

/-- The byte in front of a note about builds. -/
def buildMark : UInt8 := 0xFF

/-- The lines of a comment at a depth of indentation. A block comment from the start of a line gets a
margin if it is indented. -/
def Piece.lines (depth : Nat) (p : Piece) : List Text :=
  if p.isBlock then
    let lines := match p.text.splitOn '\n'.toUInt8 with
      | first :: rest =>
        if p.spot.column = 0 && 0 < depth then first :: rest.map fun l => "   " ++ l
        else first :: rest
      | [] => []
    (stripMargin lines).map trimEnd
  else
    let isNote := (Constraint.formula? p.text).isSome || (Constraint.wordLine? p.text).isSome
    if isNote then [buildMark :: trimEnd p.text] else [trimEnd p.text]

end WireModel.Source.Comment
