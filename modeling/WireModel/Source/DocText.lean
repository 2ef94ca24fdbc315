import WireModel.Source.DocText.Link

/-!
# Documentation texts

A documentation text is made of paragraphs, headings, listings and lists. Lines that are indented
belong to a list if the first of them starts with a mark, and to a listing otherwise; other lines
make a paragraph. A line of its own is a heading if it starts with a number sign, or if it reads
like a title between two empty lines. A paragraph of nothing but link targets holds the targets of
the links of the text.

A text has one usual form: headings have a number sign, listings are indented by a tab, marks stand
in a column, single empty lines separate the parts, and link targets come last, first those that
the text refers to. Doubled quotes become the quotes of print.
-/

namespace WireModel.Source.DocText

/-! ## Lines -/

/-- Whether a line starts with a blank or tab. -/
def isIndented (l : Text) : Bool := l.head?.any isPad

/-- The longest common start. -/
def commonStart : Text → Text → Text
  | a :: as, b :: bs => if a == b then a :: commonStart as bs else []
  | _, _ => []

/-- The lines without empty ones at both ends. -/
def trimLines (ls : List Text) : List Text :=
  ((ls.dropWhile (·.isEmpty)).reverse.dropWhile (·.isEmpty)).reverse

/-- The lines without the padding that all of them share, and without blank ones at both ends. A blank
line at the start shares its padding with the others. -/
def unindent (ls : List Text) : List Text :=
  match trimLines ls with
  | [] => []
  | first :: rest =>
    let pads := (rest.filter (!·.isEmpty)).map (·.takeWhile isPad)
    let shared := pads.foldl commonStart (first.takeWhile isPad)
    trimLines ((first :: rest).map fun l =>
      let l := (Text.stripStart? shared l).getD l
      if Text.isBlank l then [] else l)

/-- The number of a list item, empty for a mark without one, and the text after the mark. A mark is
a dash, a star, a plus, a bullet, or a number with a dot or bracket. -/
def listItem? (line : Text) : Option (Text × Text) :=
  let t := line.trim
  let number : Text := t.takeWhile Text.isDigit
  let rest? : Option Text :=
    match t.drop number.length with
    | [] => none
    | b :: r =>
      if number.isEmpty then
        if b == '-'.toUInt8 || b == '*'.toUInt8 || b == '+'.toUInt8 then some r
        else Text.stripStart? "•" t
      else if b == '.'.toUInt8 || b == ')'.toUInt8 then some r
      else none
  rest?.bind fun rest =>
    if isIndented rest && !Text.isBlank rest then some (number, rest) else none

/-- Whether a line starts a list item. -/
def isItem (line : Text) : Bool := (listItem? line).isSome

/-! ## Headings -/

/-- Whether a line is written as a heading. -/
def isHeading (line : Text) : Bool :=
  match line with
  | a :: b :: rest => a == '#'.toUInt8 && isPad b && !Text.isBlank rest
  | _ => false

/-- The characters that do not stand in titles. -/
def notInTitles : List Nat :=
  (";:!?+*/=[]\x7b\x7d_^°&§~%#@<\">\\" : String).toList.map Char.toNat

/-- Whether every occurrence of a byte is followed by a text that passes a test. -/
def allFollowedBy (b : UInt8) (ok : Text → Bool) : Text → Bool
  | [] => true
  | c :: cs => (c != b || ok cs) && allFollowedBy b ok cs

/-- Whether a line reads like a title: it starts with a capital and ends with a letter or digit, and
has no marks in it other than commas, brackets, possessive endings and dots within words. -/
def isTitle (line : Text) : Bool :=
  let t := line.trim
  let codes := t.runes.map Rune.codePoint
  codes.head?.any Text.isCapitalRune &&
    (codes.getLast?.any fun c => Text.isLetterRune c || Text.isDigitRune c) &&
    !codes.any notInTitles.contains &&
    allFollowedBy '\x27'.toUInt8 (fun r => r == "s" || ("s " : Text).isPrefixOf r) t &&
    allFollowedBy '.'.toUInt8 (fun r => !r.isEmpty && r.head? != some ' '.toUInt8) t

/-! ## Parts -/

/-- An item of a list: its number, and its paragraphs. -/
structure ListItem where
  number : Text
  paragraphs : List (List Text)
  deriving Inhabited

/-- A part of a documentation text. -/
inductive Part where
  | paragraph (lines : List Text)
  | heading (text : Text)
  | listing (lines : List Text)
  /-- A list; `gap` says that an empty line stands before it, `loose` that there are some in it. -/
  | list (gap loose : Bool) (items : List ListItem)
  deriving Inhabited

/-- The paragraphs between empty lines. -/
def splitBlank : List Text → List (List Text)
  | [] => []
  | l :: ls =>
    if l.isEmpty then splitBlank ls
    else
      match ls, splitBlank ls with
      | next :: _, p :: ps => if next.isEmpty then [l] :: p :: ps else (l :: p) :: ps
      | _, ps => [l] :: ps

/-- The items of a list. With `numbered` only marks with a number start an item, and without it
only the others. -/
def listItems (numbered : Bool) (ls : List Text) : List ListItem :=
  let starts (l : Text) : Bool := (listItem? l).any fun (n, _) => n.isEmpty != numbered
  (ls.splitBy fun _ b => !starts b).filterMap fun
    | [] => none
    | l :: rest =>
      match listItem? l with
      | none => none
      | some (number, t) =>
        some { number, paragraphs := splitBlank ((t :: rest).map fun l => Text.trim l) }

/-- The part that indented lines make. -/
def indentedPart (gap : Bool) (ls : List Text) : Part :=
  match ls.head?.bind listItem? with
  | none => .listing (unindent ls)
  | some (number, _) =>
    let items := listItems (!number.isEmpty) ls
    let loose := ls.any Text.isBlank || items.any fun i => i.paragraphs.length != 1
    .list (gap || loose) loose items

/-- The lines that continue an indented part. The first `forced` of them belong to it in any case;
`itemsToo` says that marks without indentation do. -/
def takeIndented : (forced : Nat) → (itemsToo : Bool) → List Text → List Text × List Text
  | _, _, [] => ([], [])
  | forced, itemsToo, l :: ls =>
    if l.isEmpty || 0 < forced || isIndented l || (itemsToo && isItem l) then
      let (taken, rest) := takeIndented (forced - 1) (itemsToo && !l.isEmpty) ls
      (l :: taken, rest)
    else ([], l :: ls)

/-- The indented part at the start of some lines, and the rest. A closing brace right after it is
taken along, and empty lines at its end are not. -/
def splitIndented (forced : Nat) (first : Text) (ls : List Text) : List Text × List Text :=
  let (taken, rest) := takeIndented (forced - 1) (0 < forced && isItem first) ls
  let kept := ((first :: taken).reverse.dropWhile (·.isEmpty)).reverse
  let blanks := (first :: taken).drop kept.length
  match blanks, rest with
  | [], r :: rs => if r.head? == some '\x7d'.toUInt8 then (kept ++ [r], rs) else (kept, r :: rs)
  | _, _ => (kept, blanks ++ rest)

/-- How many lines at the end of a paragraph belong to the indented lines after it: list items, or a
line that opens a listing. -/
def lentLines (para : List Text) (next : Option Text) : Nat :=
  match next with
  | none => 0
  | some l =>
    if l.isEmpty || isItem l then 0
    else
      let last := para.getLastD []
      if isItem last then (para.reverse.takeWhile isItem).length
      else if last.getLast? == some '\x7b'.toUInt8 || last.getLast? == some '\\'.toUInt8 then 1
      else 0

/-- The part that lines without indentation make. -/
def plainPart (gap : Bool) (para rest : List Text) : Part :=
  match para, rest with
  | [l], rest =>
    let between := match rest with
      | blank :: after :: _ => blank.isEmpty && !isIndented after
      | _ => false
    if isHeading l then .heading (Text.trim (l.drop 1))
    else if gap && between && isTitle l then .heading l.trim
    else .paragraph para
  | _, _ => .paragraph para

/-- The parts of a text. The first `forced` lines are taken for indented ones. The fuel bounds the
number of parts. -/
def parts : (fuel forced : Nat) → List Text → List Part
  | 0, _, _ => []
  | fuel + 1, forced, ls =>
    let text := ls.dropWhile (·.isEmpty)
    let skipped := ls.length - text.length
    let gap := skipped != 0
    let forced := forced - skipped
    match text with
    | [] => []
    | l :: more =>
      let indented (forced : Nat) : List Part :=
        let (taken, rest) := splitIndented forced l more
        indentedPart gap taken :: parts fuel 0 rest
      if 0 < forced || isIndented l then indented forced
      else
        let (para, rest) := (l :: more).span fun l => !l.isEmpty && !isIndented l
        let lent := lentLines para rest.head?
        let own := para.take (para.length - lent)
        if own.isEmpty then indented lent
        else
          let rest := para.drop own.length ++ rest
          plainPart gap own rest :: parts fuel lent rest

/-! ## Links -/

/-- A link target: the words that stand for it, and the target. -/
structure Target where
  words : Text
  url : Text
  deriving DecidableEq, Inhabited

/-- The texts before and after the first occurrence of a part. -/
def cutPart? (part : Text) : Text → Option (Text × Text)
  | [] => none
  | b :: bs =>
    match Text.stripStart? part (b :: bs) with
    | some rest => some ([], rest)
    | none => (cutPart? part bs).map fun (before, after) => (b :: before, after)

/-- The link target a line gives. -/
def target? (line : Text) : Option Target := do
  let inside ← Text.stripStart? "[" line
  let (words, after) ← cutPart? "]:" inside
  let pad ← after.head?
  if !isPad pad || after.length < 2 then none
  let url := Text.trim (after.drop 1)
  let (scheme, _) ← cutPart? "://" url
  if schemes.contains scheme then some ⟨words, url⟩ else none

/-- The link targets of a paragraph that holds nothing else. -/
def targets? (lines : List Text) : Option (List Target) := lines.mapM target?

/-! ## The usual form -/

/-- A part of a text without the paragraphs that hold link targets, if anything is left of it. -/
def Part.shown? : Part → Option Part
  | .paragraph ls => if (targets? ls).isSome then none else some (.paragraph ls)
  | .list gap loose items =>
    let items := items.map fun i =>
      { i with paragraphs := i.paragraphs.filter fun ls => (targets? ls).isNone }
    let loose := loose || items.any fun i => i.paragraphs.length != 1
    some (.list (gap || loose) loose items)
  | p => some p

/-- The paragraphs of a part. -/
def Part.paragraphs : Part → List (List Text)
  | .paragraph ls => [ls]
  | .list _ _ items => items.flatMap (·.paragraphs)
  | _ => []

/-- A paragraph in its usual form, with an indentation behind every line end. -/
def paragraphText (words : List Text) (indent : Text) (ls : List Text) : Text :=
  let lines := (linked words (Text.join "\n" ls)).1.splitOn '\n'.toUInt8
  Text.join ("\n" ++ indent) lines ++ "\n"

/-- The text of a list item. An item without paragraphs does not even end its line. -/
def itemText (words : List Text) (i : ListItem) : Text :=
  let mark : Text := if i.number.isEmpty then "  - " else " " ++ i.number ++ ". "
  mark ++ Text.join "\n    " (i.paragraphs.map (paragraphText words "    "))

/-- The text of a part. -/
def Part.text (words : List Text) : Part → Text
  | .paragraph ls => paragraphText words [] ls
  | .heading t => "# " ++ t ++ "\n"
  | .listing ls => ls.flatMap fun l => (if l.isEmpty then l else '\t'.toUInt8 :: l) ++ "\n"
  | .list _ loose items => Text.join (if loose then "\n" else []) (items.map (itemText words))

/-- Whether an empty line stands before a part that is not the first. -/
def Part.isApart : Part → Bool
  | .list gap _ _ => gap
  | _ => true

/-- The text of parts, with empty lines between them. -/
def joinParts (words : List Text) : List Part → Text
  | [] => []
  | p :: ps =>
    let gap : Text := if ps.head?.any Part.isApart then "\n" else []
    p.text words ++ gap ++ joinParts words ps

/-- The text of link targets, with an empty line before them. -/
def targetText (ts : List Target) : Text :=
  let line (t : Target) : Text := "[" ++ t.words ++ "]: " ++ t.url ++ "\n"
  if ts.isEmpty then [] else '\n'.toUInt8 :: ts.flatMap line

/-- Targets with a mark for those that are the first for their words, and whose words are used. -/
def markUsed (used : List Text) : (seen : List Text) → List Target → List (Target × Bool)
  | _, [] => []
  | seen, t :: ts =>
    (t, !seen.contains t.words && used.contains t.words) :: markUsed used (t.words :: seen) ts

/-- The usual form of a documentation text. -/
def format (lines : List Text) : Text :=
  let ls := unindent lines
  let all := parts (ls.length + 1) 0 ls
  let targets := (all.flatMap fun p => p.paragraphs.filterMap targets?).flatten
  let words := targets.map (·.words)
  let shown := all.filterMap Part.shown?
  let used := (shown.flatMap Part.paragraphs).flatMap fun ls => (linked words (Text.join "\n" ls)).2
  let marked := markUsed used [] targets
  let those (isUsed : Bool) : List Target := (marked.filter (·.2 == isUsed)).map (·.1)
  joinParts words shown ++ targetText (those true) ++ targetText (those false)

end WireModel.Source.DocText
