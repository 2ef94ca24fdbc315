import WireModel.Document.Yaml.Scalar

/-!
# YAML tokens

The tokens of a YAML text. Indentation becomes tokens that open and close blocks, so that what
follows does not look at columns any more.

A word may turn out to be a key only when a colon follows it on the same line. Until then it is a
*candidate*: its place among the tokens is remembered, and the tokens that make it a key are put
there when the colon comes. A candidate that stands exactly where the keys of the open block start
has to become a key.

Tokens are made before they are taken: a token is given away only when two more are waiting behind
it, and not while it is a candidate. So what cannot be read spoils a few tokens before it. An empty
pair of brackets is not waited for; a colon that comes when the brackets are given away makes tokens
at the end.

Anchors, aliases, tags and directives are not read. A text that breaks the rules gives the tokens up
to that point, and a last one that says so.
-/

namespace WireModel.Yaml

/-- The kinds of tokens. -/
inductive TokenKind where
  | sequenceStart
  | mappingStart
  | blockEnd
  /-- A dash before an item. -/
  | item
  | key
  | value
  | flowSequenceStart
  | flowSequenceEnd
  | flowMappingStart
  | flowMappingEnd
  /-- A comma. -/
  | comma
  | scalar (plain : Bool) (text : Text)
  | documentStart
  | documentEnd
  | textEnd
  /-- What cannot be read. -/
  | broken
  deriving DecidableEq, Inhabited

/-- A token and the line it starts in, counted from one. -/
structure Token where
  kind : TokenKind
  line : Nat
  deriving DecidableEq, Inhabited

/-- A word that may become a key. -/
structure Candidate where
  /-- Whether it has to. -/
  required : Bool
  /-- Whether its token is kept until it is known to be no key. -/
  awaited : Bool := true
  /-- How many tokens come before it. -/
  number : Nat
  line : Nat
  column : Nat
  index : Nat
  deriving Inhabited

/-- How far a colon may be from the start of its key. -/
def maxKeyLength : Nat := 1024

/-- How many brackets may be open, and how many blocks. -/
def maxDepth : Nat := 10000

/-- How many tokens are made before one is taken. -/
def lookahead : Nat := 3

/-- The inside of a bracket, or what is outside of all. -/
structure Level where
  /-- The number of the last candidate inside, or of the bracket if there was none. -/
  number : Nat := 0
  candidate : Option Candidate := none
  deriving Inhabited

/-- A level that no longer waits for the token with a number. -/
def Level.forget (number : Nat) (l : Level) : Level :=
  { l with candidate := l.candidate.map fun c =>
      { c with awaited := c.awaited && c.number != number } }

/-- Everything known between two tokens. -/
structure Scanner where
  cursor : Cursor
  /-- The tokens that wait to be taken, the last one first. -/
  tokens : List Token := []
  /-- How many tokens have been taken. -/
  taken : Nat := 0
  /-- The column of the open block, negative outside of all. -/
  indent : Int := -1
  /-- The columns of the blocks around it. -/
  outer : List Int := []
  /-- Whether a key may start here. -/
  keyAllowed : Bool := true
  /-- The open brackets, the innermost first, and what is outside of them. -/
  levels : List Level := [{}]
  deriving Inhabited

namespace Scanner

/-- How many brackets are open. -/
def depth (s : Scanner) : Nat := s.levels.length - 1

/-- Whether a bracket is open. -/
def inFlow (s : Scanner) : Bool :=
  match s.levels with
  | _ :: _ :: _ => true
  | _ => false

/-- The scanner after a token that starts at the given line. -/
def push (s : Scanner) (kind : TokenKind) (line : Nat) : Scanner :=
  { s with tokens := ⟨kind, line + 1⟩ :: s.tokens }

/-- The number the next token gets. -/
def nextNumber (s : Scanner) : Nat := s.taken + s.tokens.length

/-- The scanner with a token put before the one with a number, or last if that one has been taken. -/
def insert (s : Scanner) (number : Nat) (kind : TokenKind) (line : Nat) : Scanner :=
  if number < s.taken then s.push kind line
  else
    let later := s.nextNumber - number
    { s with tokens := s.tokens.take later ++ ⟨kind, line + 1⟩ :: s.tokens.drop later }

/-- The scanner after a token of `n` characters at the cursor. -/
def take (s : Scanner) (kind : TokenKind) (n : Nat) : Scanner :=
  { s.push kind s.cursor.line with cursor := s.cursor.skip n }

/-! ## Blocks -/

/-- How many blocks end at a column, the column of the block that stays open, and of those
around it. -/
def closing (column : Int) : Int → List Int → Nat × Int × List Int
  | indent, [] => (0, indent, [])
  | indent, o :: os =>
    if indent ≤ column then (0, indent, o :: os)
    else
      let (n, rest) := closing column o os
      (n + 1, rest)

/-- Closes the blocks that end at a column. -/
def unroll (s : Scanner) (column : Int) : Scanner :=
  if s.inFlow then s
  else
    let (n, indent, outer) := closing column s.indent s.outer
    let s := (List.range n).foldl (fun s _ => s.push .blockEnd s.cursor.line) s
    { s with indent, outer }

/-- Opens a block at a column unless one is open there, with its token before the one with a
number. -/
def roll? (s : Scanner) (column number : Nat) (kind : TokenKind) (line : Nat) : Option Scanner :=
  if s.inFlow || decide ((column : Int) ≤ s.indent) then some s
  else if maxDepth ≤ s.outer.length then none
  else some { s.insert number kind line with indent := column, outer := s.indent :: s.outer }

/-- Opens a block at the cursor unless one is open there. -/
def rollHere? (s : Scanner) (kind : TokenKind) : Option Scanner :=
  s.roll? s.cursor.column s.nextNumber kind s.cursor.line

/-! ## Candidates -/

/-- The candidate inside the innermost bracket. -/
def candidate? (s : Scanner) : Option Candidate := s.levels.head?.bind (·.candidate)

/-- The scanner without a candidate inside the innermost bracket. -/
def noCandidate (s : Scanner) : Scanner :=
  match s.levels with
  | [] => s
  | l :: ls => { s with levels := { l with candidate := none } :: ls }

/-- Gives up the candidate, unless it has to become a key. -/
def dropCandidate? (s : Scanner) : Option Scanner :=
  if s.candidate?.any (·.required) then none else some s.noCandidate

/-- Makes what starts at the cursor the candidate, if a key may start there. -/
def saveCandidate? (s : Scanner) : Option Scanner := do
  if !s.keyAllowed then some s
  else
    let c := s.cursor
    let required := !s.inFlow && decide (s.indent = c.column)
    let s ← s.dropCandidate?
    let number := s.nextNumber
    let candidate := some { required, number, line := c.line, column := c.column, index := c.index }
    some { s with levels := { number, candidate } :: s.levels.drop 1 }

/-- Whether a candidate is too far from the cursor to become a key. -/
def isStale (s : Scanner) (c : Candidate) : Bool :=
  decide (c.line < s.cursor.line) || decide (c.index + maxKeyLength < s.cursor.index)

/-! ## Single tokens -/

/-- A mark between documents. -/
def documentMark? (s : Scanner) (kind : TokenKind) : Option Scanner := do
  let s ← (s.unroll (-1)).dropCandidate?
  some { s.take kind 3 with keyAllowed := false }

/-- An opening bracket. -/
def openFlow? (s : Scanner) (kind : TokenKind) : Option Scanner := do
  if maxDepth ≤ s.depth then none
  else
    let number := s.nextNumber
    let s ← s.saveCandidate?
    let s := s.take kind 1
    some { s with keyAllowed := true, levels := { number } :: s.levels }

/-- A closing bracket. -/
def closeFlow? (s : Scanner) (kind : TokenKind) : Option Scanner := do
  let s ← s.dropCandidate?
  let levels := match s.levels with
    | inner :: outer :: ls => outer.forget inner.number :: ls
    | ls => ls
  some { s.take kind 1 with keyAllowed := false, levels }

/-- A comma. -/
def comma? (s : Scanner) : Option Scanner := do
  let s ← s.dropCandidate?
  some { s.take .comma 1 with keyAllowed := true }

/-- A dash before an item. -/
def item? (s : Scanner) : Option Scanner := do
  if !s.inFlow && !s.keyAllowed then none
  else
    let s ← s.rollHere? .sequenceStart
    let s ← s.dropCandidate?
    some { s.take .item 1 with keyAllowed := true }

/-- A question mark before a key. -/
def key? (s : Scanner) : Option Scanner := do
  if !s.inFlow && !s.keyAllowed then none
  else
    let s ← s.rollHere? .mappingStart
    let s ← s.dropCandidate?
    some { s.take .key 1 with keyAllowed := !s.inFlow }

/-- A colon that no candidate belongs to. -/
def bareValue? (s : Scanner) : Option Scanner := do
  if !s.inFlow && !s.keyAllowed then none
  else
    let s ← s.rollHere? .mappingStart
    some { s.take .value 1 with keyAllowed := !s.inFlow }

/-- A colon before a value. It makes the candidate a key. -/
def value? (s : Scanner) : Option Scanner :=
  match s.candidate? with
  | none => s.bareValue?
  | some c =>
    if s.isStale c then
      if c.required then none else s.noCandidate.bareValue?
    else do
      let s ← (s.insert c.number .key c.line).roll? c.column c.number .mappingStart c.line
      some { s.noCandidate.take .value 1 with keyAllowed := false }

/-- A scalar of some characters that ends at a cursor. -/
def scalar (s : Scanner) (plain : Bool) (cs : List Char) (stop : Cursor) : Scanner :=
  { s.push (.scalar plain (bytesOf cs)) s.cursor.line with cursor := stop }

/-- A scalar between quotes. -/
def quotedScalar? (s : Scanner) (quote : Char) : Option Scanner := do
  let s ← s.saveCandidate?
  let (cs, stop) ← quoted? quote s.cursor.size s.cursor.next
  some { s.scalar false cs stop with keyAllowed := false }

/-- A block scalar. -/
def blockScalar? (s : Scanner) (literal : Bool) : Option Scanner := do
  let s ← s.dropCandidate?
  let (cs, stop) ← block? literal s.indent s.cursor.next
  some { s.scalar false cs stop with keyAllowed := true }

/-- A plain scalar. -/
def plainScalar? (s : Scanner) : Option Scanner := do
  let s ← s.saveCandidate?
  let (cs, stop, lineEnded) ← plain? s.inFlow (s.indent + 1).toNat s.cursor
  some { s.scalar true cs stop with keyAllowed := lineEnded }

/-! ## Scanning -/

/-- How far the next comment may be for it to be read together with the one before. -/
def maxCommentGap : Nat := 511

/-- The cursor behind the comment it stands at, and behind the comments on later lines that only
white space divides from it. -/
def skipComments : (fuel : Nat) → Cursor → Cursor
  | 0, c => c
  | fuel + 1, c =>
    let c := c.skipWhile (!isBreak ·)
    if !c.sees '\n' then c
    else
      let gap := ((c.rest.drop 1).take maxCommentGap).takeWhile fun x => isBlank x || x == '\n'
      let next := c.skip (gap.length + 1)
      if gap.length < maxCommentGap && next.sees '#' then skipComments fuel next else c

/-- The cursor behind a comment on the rest of its line. -/
def skipLineComment (c : Cursor) : Cursor :=
  let next := c.skipWhile isBlank
  if next.sees '#' && decide (next.index - c.index ≤ maxCommentGap) then
    next.skipWhile (!isBreak ·)
  else c

/-- White space and comments before a token. A line break allows a key to start, and where a key
may start there are no tabs. A mark of byte order may start a line. -/
def skipSpace : (fuel : Nat) → Scanner → Scanner
  | 0, s => s
  | fuel + 1, s =>
    let tabs := s.inFlow || !s.keyAllowed
    let c := s.cursor
    let c := if c.column == 0 && c.sees '\uFEFF' then c.next else c
    let c := c.skipWhile fun x => x == ' ' || (tabs && x == '\t')
    let c := if c.sees '#' then skipComments c.size c else c
    if c.atBreak then
      skipSpace fuel { s with cursor := c.next, keyAllowed := s.keyAllowed || !s.inFlow }
    else { s with cursor := c }

/-- Characters that no plain scalar starts with. -/
def isIndicator (c : Char) : Bool :=
  "-?:,[]\x7b\x7d#&*!|>'\"%@\x60".toList.contains c

/-- Whether a plain scalar may start at the cursor. -/
def startsPlain (s : Scanner) (x : Char) : Bool :=
  let c := s.cursor
  !(isBlank x || isBreak x || isIndicator x) || (x == '-' && !c.next.atBlank) ||
    (!s.inFlow && (x == '?' || x == ':') && !c.next.atGap)

/-- The scanner after the next token, which starts at the cursor with a character. -/
def token? (s : Scanner) (x : Char) : Option Scanner :=
  let c := s.cursor
  if c.column == 0 && x == '%' then none
  else if c.atMark '-' then s.documentMark? .documentStart
  else if c.atMark '.' then s.documentMark? .documentEnd
  else if x == '[' then s.openFlow? .flowSequenceStart
  else if x == '\x7b' then s.openFlow? .flowMappingStart
  else if x == ']' then s.closeFlow? .flowSequenceEnd
  else if x == '\x7d' then s.closeFlow? .flowMappingEnd
  else if x == ',' then s.comma?
  else if x == '-' && c.next.atGap then s.item?
  else if x == '?' && (s.inFlow || c.next.atGap) then s.key?
  else if x == ':' && (s.inFlow || c.next.atGap) then s.value?
  else if x == '|' && !s.inFlow then s.blockScalar? true
  else if x == '>' && !s.inFlow then s.blockScalar? false
  else if x == '\x27' || x == '\x22' then s.quotedScalar? x
  else if s.startsPlain x then s.plainScalar?
  else none

/-- The scanner after the next token with a comment behind it on its line. Marks between documents,
dashes and what ends at the start of a line have none. -/
def commented (s : Scanner) : Scanner :=
  match s.tokens with
  | ⟨.item, _⟩ :: _ | ⟨.documentStart, _⟩ :: _ | ⟨.documentEnd, _⟩ :: _ => s
  | _ => if s.cursor.column == 0 then s else { s with cursor := skipLineComment s.cursor }

/-- The scanner at the end of the text, which is the start of a line. -/
def atEnd (s : Scanner) : Scanner :=
  if s.cursor.column == 0 then s
  else { s with cursor := { s.cursor with line := s.cursor.line + 1, column := 0 } }

/-- The scanner after making the next token. -/
def make? (s : Scanner) : Option Scanner :=
  let s := s.skipSpace (s.cursor.size + 1)
  let s := s.unroll s.cursor.column
  match s.cursor.peek? with
  | none => do
    let s ← (s.atEnd.unroll (-1)).dropCandidate?
    some (s.push .textEnd s.cursor.line)
  | some x => (s.token? x).map commented

/-- The candidate with a number that is still awaited. The numbers fall from level to level, so
levels behind a lower number are not looked at. -/
def awaitedIn? (number : Nat) : List Level → Option Candidate
  | [] => none
  | l :: ls =>
    if l.number < number then none
    else (l.candidate.filter fun c => c.awaited && c.number == number).or (awaitedIn? number ls)

/-- The candidate that is the next token to be taken. -/
def awaited? (s : Scanner) : Option Candidate := awaitedIn? s.taken s.levels

/-- The scanner with enough tokens to take one. Every step that makes a token moves the cursor, until
it is at the end. -/
def fill? : (fuel : Nat) → Scanner → Option Scanner
  | 0, _ => none
  | fuel + 1, s =>
    if s.tokens.length < lookahead then s.make? >>= fill? fuel
    else
      match s.awaited? with
      | none => some s
      | some c =>
        if s.isStale c then (if c.required then none else some s) else s.make? >>= fill? fuel

/-- The tokens that are taken one after the other, up to the end or to what cannot be read. -/
def run : (fuel : Nat) → Scanner → List Token
  | 0, _ => []
  | fuel + 1, s =>
    match s.fill? (s.cursor.size + lookahead + 2) with
    | none => [⟨.broken, s.cursor.line + 1⟩]
    | some s =>
      match s.tokens.getLast? with
      | none => []
      | some t =>
        if t.kind == .textEnd then [t]
        else t :: run fuel { s with tokens := s.tokens.dropLast, taken := s.taken + 1 }

end Scanner

/-- The tokens of a text. A character makes three tokens at most, and of these one asks for another
one when its block is closed. -/
def tokens (cs : List Char) : List Token :=
  Scanner.run (4 * cs.length + 4) { cursor := { rest := cs } }

end WireModel.Yaml
