import WireModel.Source.DocComment

/-!
# Gaps between the words of source

Between two words of a file stand line ends and comments. A gap is laid out from what was written
there first: a comment keeps its line, one empty line at most is kept between two comments, and
after a comment behind slashes the line ends. Where no comment stands, the line ends that the layout
asks for are all there is.

The line ends of a file are counted while it is laid out, and a form feed inside a comment counts as
one. So the words after such a comment move up.
-/

namespace WireModel.Source

/-- Lines of text; an expression has at least one. -/
abbrev Lines := List Text

namespace Lines

/-- Lines followed by others on the same line. -/
def glue : Lines → Lines → Lines
  | [], bs => bs
  | as, [] => as
  | [a], b :: bs => (a ++ b) :: bs
  | a :: as, bs => a :: glue as bs

/-- Lines with a text put in front. -/
def lead (t : Text) (ls : Lines) : Lines := glue [t] ls

/-- Lines with a text put behind. -/
def trail (ls : Lines) (t : Text) : Lines := glue ls [t]

/-- Several lines one after the other, with a text between them. -/
def join (sep : Text) : List Lines → Lines
  | [] => [[]]
  | [ls] => ls
  | ls :: rest => glue (ls.trail sep) (join sep rest)

/-- Lines one step further to the right; empty lines stay empty. -/
def indent (ls : Lines) : Lines := ls.map fun l => if l.isEmpty then l else '\t'.toUInt8 :: l

end Lines

/-- What was first written between two words. -/
structure Gap where
  comments : List Comment.Piece
  /-- The number of bytes. -/
  size : Nat
  /-- The number of lines that end there. -/
  breaks : Nat
  deriving Inhabited

/-- What stands behind a gap. -/
inductive Behind where
  | word
  /-- The word that starts an import; a comment before it is not taken for documentation. -/
  | importWord
  /-- The end of the file. -/
  | nothing
  deriving DecidableEq, Inhabited

/-- Where a gap stands. -/
structure Place where
  /-- The depth of indentation. -/
  depth : Nat := 0
  /-- Nothing stands before the gap. -/
  isStart : Bool := false
  /-- The line ends the layout asks for. -/
  breaks : Nat := 0
  behind : Behind := .word
  deriving Inhabited

namespace Gap

/-- The gap a text starts with, and the rest of the text. -/
def read? (t : Text) : Option (Gap × Text) :=
  (Comment.comments? t).map fun (ps, s, rest) => (⟨ps, s.offset, s.line⟩, rest)

/-- The gap a text is, if it holds nothing but comments. -/
def ofText? (t : Text) : Option Gap :=
  (read? t).bind fun (g, rest) => if rest.isEmpty then some g else none

/-! ## Laying out -/

/-- A gap that is being laid out. -/
structure Layout where
  /-- The lines so far, the last one first. -/
  lines : Lines := [[]]
  /-- The line that has been reached, counted like the lines of the gap. -/
  line : Nat := 0
  /-- The line on which the last text ended. -/
  last : Nat := 0
  /-- The line ends that are asked for and not yet written, and whether one was left out. -/
  breaks : Nat
  isFresh : Bool
  /-- Whether the last comment was a block. -/
  prev : Option Bool := none

namespace Layout

/-- Some lines end. -/
def endLines (n : Nat) (l : Layout) : Layout :=
  { l with lines := List.replicate n [] ++ l.lines, line := l.line + n }

/-- A text on the last line. -/
def put (t : Text) (l : Layout) : Layout :=
  match l.lines with
  | [] => { l with lines := [t] }
  | x :: xs => { l with lines := (x ++ t) :: xs }

/-- What stands in front of a comment: a blank on the same line, or line ends. The first comment in
a gap takes the place of a line end that is asked for; outside of blocks that leaves an empty line
before it. -/
def approach (p : Place) (line : Nat) (l : Layout) : Layout :=
  if p.isStart && l.prev.isNone then l
  else if line == l.last && l.prev != some false then l.put " "
  else
    let replaces := l.isFresh && l.prev.isNone && p.depth == 0
    let n := (line - l.last) + (if replaces then 1 else 0)
    let n := if n == 0 && l.prev == some false then 1 else n
    let l := if l.isFresh then { l with breaks := l.breaks - 1, isFresh := false } else l
    l.endLines (min n 2)

/-- A comment. -/
def comment (p : Place) (l : Layout) (c : Comment.Piece) : Layout :=
  let l := l.approach p c.spot.line
  let lines := c.lines p.depth
  let feeds := (lines.map (·.count 0x0C)).foldr (· + ·) 0
  let line := c.spot.line + (lines.length - 1) + feeds
  let l := match lines with
    | [] => l
    | x :: xs => xs.foldl (fun l x => (l.endLines 1).put x) (l.put x)
  { l with line, last := line, prev := some c.isBlock }

/-- What stands behind the last comment: the end of its line where it needs one, and line ends up to
the line of what follows. -/
def leave (p : Place) (breaks : Nat) (last : Comment.Piece) (l : Layout) : Layout :=
  let isNear := last.isBlock && last.spot.line == breaks
  let ends := if isNear then 0 < l.breaks else !last.isBlock
  if p.behind == .nothing then l
  else
    let l := if ends then l.endLines 1 else if isNear then l.put " " else l
    let n := min (breaks - l.line) 2
    l.endLines (if ends then min n 1 else n)

end Layout

/-- Whether a group of comments is documentation of what follows: it starts a line outside of blocks
and ends one byte before what follows. -/
def isDoc (g : Gap) (p : Place) (group : List Comment.Piece) : Bool :=
  p.depth == 0 && p.behind == .word &&
    group.head?.any (fun c => c.spot.column == 0 && (p.isStart || c.spot.line != 0)) &&
    group.getLast?.any (·.stop + 1 == g.size)

/-- The groups of comments in a gap. Those on the line of the word before are one of their own. -/
def groups (g : Gap) (p : Place) : List (List Comment.Piece) :=
  match g.comments with
  | c :: _ =>
    if c.spot.line == 0 && !p.isStart then
      match g.comments.splitBy fun a b => b.spot.counted ≤ a.endCounted with
      | near :: _ => near :: Comment.groups (g.comments.drop near.length)
      | [] => []
    else Comment.groups g.comments
  | [] => []

/-- The layout of groups of comments and of what stands behind the last one. Documentation that holds
nothing disappears with the end of its line. -/
def layoutGroups (g : Gap) (p : Place) (last : Comment.Piece) :
    List (List Comment.Piece) → Layout → Layout
  | [], l => l.leave p g.breaks last
  | group :: more, l =>
    if g.isDoc p group then
      match Comment.docForm group with
      | [] => l.approach p ((group.head?.map (·.spot.line)).getD 0)
      | cs =>
        let l := cs.foldl (Layout.comment p) l
        layoutGroups g p last more { l with line := last.endLine, last := last.endLine }
    else layoutGroups g p last more (group.foldl (Layout.comment p) l)

/-- The lines of a gap. The first goes on with the line before, and the last is gone on with. -/
def lines (g : Gap) (p : Place) : Lines :=
  match g.comments.getLast? with
  | none =>
    if p.behind == .nothing then [] else List.replicate (p.breaks + 1) []
  | some last =>
    (g.layoutGroups p last (g.groups p)
      { breaks := p.breaks, isFresh := 0 < p.breaks }).lines.reverse

end Gap

end WireModel.Source
