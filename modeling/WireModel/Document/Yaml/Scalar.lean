import WireModel.Document.Yaml.Cursor

/-!
# Written scalars

The five ways to write a scalar: plain, between single or double quotes, and as a literal or
folded block. Each reader stands behind what announces the scalar and gives the characters it
stands for together with the cursor behind it.

In plain and quoted scalars, blanks at the end and at the start of a line do not count, a single
line break counts as a space, and of several breaks all but the first count. Blocks keep their
lines; folding joins those that are not indented further.
-/

namespace WireModel.Yaml

/-! ## Gaps -/

/-- The white space between two words. -/
structure Gap where
  /-- The blanks before the first line break. -/
  blanks : List Char := []
  /-- The line breaks. -/
  breaks : List Char := []
  deriving Inhabited

namespace Gap

/-- What line breaks between two lines stand for. -/
def fold : List Char → List Char
  | [] => []
  | '\n' :: [] => [' ']
  | '\n' :: bs => bs
  | bs => bs

/-- What a gap stands for. -/
def text (g : Gap) : List Char := if g.breaks.isEmpty then g.blanks else fold g.breaks

end Gap

/-- The gap a cursor stands at. No tab may come before column `margin` of a later line. -/
def gap? (margin : Nat) : (fuel : Nat) → Gap → Cursor → Option (Gap × Cursor)
  | 0, _, _ => none
  | fuel + 1, g, c =>
    match c.peek? with
    | none => some (g, c)
    | some x =>
      if isBreak x then gap? margin fuel { g with breaks := g.breaks ++ [x] } c.next
      else if isBlank x then
        if g.breaks.isEmpty then gap? margin fuel { g with blanks := g.blanks ++ [x] } c.next
        else if x == '\t' && decide (c.column < margin) then none
        else gap? margin fuel g c.next
      else some (g, c)

/-! ## Plain scalars -/

/-- Characters that end a plain scalar inside brackets. -/
def isFlowMark (c : Char) : Bool :=
  c == ',' || c == '?' || c == '[' || c == ']' || c == '\x7b' || c == '\x7d'

/-- Whether a plain scalar ends at a character. -/
def endsWord (flow : Bool) (c : Cursor) : Bool :=
  c.atGap || (c.sees ':' && c.next.atGap) || (flow && c.peek?.any isFlowMark)

/-- The word a cursor stands at. -/
def word (flow : Bool) : (fuel : Nat) → Cursor → List Char × Cursor
  | 0, c => ([], c)
  | fuel + 1, c =>
    if endsWord flow c then ([], c)
    else
      let (w, stop) := word flow fuel c.next
      (c.rest.take 1 ++ w, stop)

/-- The rest of a plain scalar after a gap. Outside of brackets its lines have to start at column
`margin` at least. The flag says whether a line break comes last. -/
def plainRest (flow : Bool) (margin : Nat) :
    (fuel : Nat) → Gap → Cursor → Option (List Char × Cursor × Bool)
  | 0, _, _ => none
  | fuel + 1, g, c =>
    let lineEnded := !g.breaks.isEmpty
    if c.atDocumentMark || c.sees '#' then some ([], c, lineEnded)
    else
      match word flow c.size c with
      | ([], c) => some ([], c, lineEnded)
      | (w, c) => do
        let (g', c') ← gap? margin (c.size + 1) {} c
        let lead := g.text ++ w
        if c'.index == c.index then some (lead, c, false)
        else if !flow && decide (c'.column < margin) then
          some (lead, c', !g'.breaks.isEmpty)
        else
          let (t, stop, ended) ← plainRest flow margin fuel g' c'
          some (lead ++ t, stop, ended)

/-- The plain scalar a cursor stands at. -/
def plain? (flow : Bool) (margin : Nat) (c : Cursor) : Option (List Char × Cursor × Bool) :=
  plainRest flow margin (c.size + 1) {} c

/-! ## Quoted scalars -/

/-- What an escape of one character stands for. -/
def shortEscape? : Char → Option Char
  | '0' => some (Char.ofNat 0x00)
  | 'a' => some (Char.ofNat 0x07)
  | 'b' => some (Char.ofNat 0x08)
  | 't' | '\t' => some (Char.ofNat 0x09)
  | 'n' => some (Char.ofNat 0x0A)
  | 'v' => some (Char.ofNat 0x0B)
  | 'f' => some (Char.ofNat 0x0C)
  | 'r' => some (Char.ofNat 0x0D)
  | 'e' => some (Char.ofNat 0x1B)
  | ' ' => some ' '
  | '\x22' => some '\x22'
  | '\x27' => some '\x27'
  | '\\' => some '\\'
  | 'N' => some (Char.ofNat 0x85)
  | '_' => some (Char.ofNat 0xA0)
  | 'L' => some (Char.ofNat 0x2028)
  | 'P' => some (Char.ofNat 0x2029)
  | _ => none

/-- The number of hexadecimal digits after an escape character. -/
def escapeDigits? : Char → Option Nat
  | 'x' => some 2
  | 'u' => some 4
  | 'U' => some 8
  | _ => none

/-- The value of hexadecimal digits. -/
def hexNumber? (cs : List Char) : Option Nat :=
  cs.foldl (fun n c => do
    let n ← n
    let d ← if c.toNat < 0x80 then Text.hexValue? c.toUInt8 else none
    pure (16 * n + d)) (some 0)

/-- The character of a code, if it is one. -/
def character? (n : Nat) : Option Char :=
  if n.isValidChar then some (Char.ofNat n) else none

/-- The escape behind a backslash: what it stands for and the cursor behind it. -/
def escape? (c : Cursor) : Option (Char × Cursor) := do
  let x ← c.peek?
  match shortEscape? x with
  | some y => some (y, c.next)
  | none =>
    let width ← escapeDigits? x
    let digits := c.next.rest.take width
    if digits.length < width then none
    else
      let y ← hexNumber? digits >>= character?
      some (y, c.next.skip width)

/-- The content of a quoted scalar up to its closing quote, which comes off too. -/
def quoted? (quote : Char) : (fuel : Nat) → Cursor → Option (List Char × Cursor)
  | 0, _ => none
  | fuel + 1, c =>
    if c.atDocumentMark then none
    else
      match c.peek? with
      | none => none
      | some x =>
        if x == quote then
          if quote == '\x27' && c.next.sees '\x27' then
            (quoted? quote fuel (c.skip 2)).map fun (t, stop) => (x :: t, stop)
          else some ([], c.next)
        else if isBlank x || isBreak x then do
          let (g, c) ← gap? 0 (c.size + 1) {} c
          (quoted? quote fuel c).map fun (t, stop) => (g.text ++ t, stop)
        else if quote == '\x22' && x == '\\' then
          if c.next.atBreak then do
            let (g, c) ← gap? 0 (c.size + 1) { breaks := ['\n'] } (c.skip 2)
            (quoted? quote fuel c).map fun (t, stop) => (g.breaks.drop 1 ++ t, stop)
          else do
            let (y, c) ← escape? c.next
            (quoted? quote fuel c).map fun (t, stop) => (y :: t, stop)
        else (quoted? quote fuel c.next).map fun (t, stop) => (x :: t, stop)

/-! ## Blocks -/

/-- What becomes of the line breaks at the end of a block. -/
inductive Chomp where
  /-- All are dropped. -/
  | strip
  /-- One is kept. -/
  | clip
  /-- All are kept. -/
  | keep
  deriving DecidableEq, Inhabited

/-- The header of a block. -/
structure BlockHeader where
  chomp : Chomp := .clip
  /-- How far the block is indented; zero if its first line says so. -/
  increment : Nat := 0
  deriving Inhabited

/-- The chomping mark a cursor stands at. -/
def chomp? (c : Cursor) : Option (Chomp × Cursor) :=
  if c.sees '+' then some (.keep, c.next)
  else if c.sees '-' then some (.strip, c.next)
  else none

/-- The indentation mark a cursor stands at, zero if there is none. A written zero is refused. -/
def increment? (c : Cursor) : Option (Nat × Cursor) :=
  match c.peek? with
  | some x =>
    if x == '0' then none
    else if x.isDigit then some (x.toNat - '0'.toNat, c.next)
    else some (0, c)
  | none => some (0, c)

/-- The header of a block: marks, blanks and a comment up to the end of the line. -/
def blockHeader? (c : Cursor) : Option (BlockHeader × Cursor) := do
  let (header, c) ← match chomp? c with
    | some (chomp, c) => do
      let (increment, c) ← increment? c
      some (({ chomp, increment } : BlockHeader), c)
    | none => do
      let (increment, c) ← increment? c
      match if increment == 0 then none else chomp? c with
      | some (chomp, c) => some ({ chomp, increment }, c)
      | none => some ({ increment }, c)
  let c := c.skipWhile isBlank
  let c := if c.sees '#' then c.skipWhile (!isBreak ·) else c
  if c.atBreak then some (header, c.next)
  else if c.rest.isEmpty then some (header, c)
  else none

/-- Empty lines and the indentation of the line after them: the line breaks, the widest
indentation seen, and the cursor behind. An indentation of zero is not known yet. -/
def blockBreaks? (indent : Nat) :
    (fuel widest : Nat) → Cursor → Option (List Char × Nat × Cursor)
  | 0, _, _ => none
  | fuel + 1, widest, c =>
    let spaces := (c.rest.takeWhile (· == ' ')).length
    let c := c.skip (if indent == 0 then spaces else min spaces (indent - c.column))
    let widest := max widest c.column
    if (indent == 0 || decide (c.column < indent)) && c.sees '\t' then none
    else if c.atBreak then do
      let (bs, widest, stop) ← blockBreaks? indent fuel widest c.next
      some (c.rest.take 1 ++ bs, widest, stop)
    else some ([], widest, c)

/-- The lines of a block with a known indentation. `lead` is the break that ended the line before,
`blank` whether that line was indented further, and `empty` the breaks of empty lines after it.
The breaks that come last are given apart. -/
def blockLines? (literal : Bool) (indent : Nat) : (fuel : Nat) → (lead : List Char) →
    (blank : Bool) → (empty : List Char) → Cursor →
    Option (List Char × List Char × List Char × Cursor)
  | 0, _, _, _, _ => none
  | fuel + 1, lead, blank, empty, c =>
    if c.column != indent || c.rest.isEmpty then some ([], lead, empty, c)
    else do
      let joins := !literal && !blank && !c.atBlank && lead == ['\n']
      let glue := if joins then (if empty.isEmpty then [' '] else []) else lead
      let (line, c') := c.takeWhile (!isBreak ·)
      let lead' := c'.rest.take 1
      let (empty', _, c'') ← blockBreaks? indent (c'.size + 1) 0 c'.next
      let (t, tail) ← blockLines? literal indent fuel lead' c.atBlank empty' c''
      some (glue ++ empty ++ line ++ t, tail)

/-- The block a cursor stands at, behind its first mark. `margin` is the column the lines around it
start in, or one less than zero at the top. -/
def block? (literal : Bool) (margin : Int) (c : Cursor) : Option (List Char × Cursor) := do
  let (header, c) ← blockHeader? c
  let given := if header.increment == 0 then 0 else (max margin 0).toNat + header.increment
  let (empty, widest, c) ← blockBreaks? given (c.size + 1) 0 c
  let indent := if given == 0 then max (max widest (margin + 1).toNat) 1 else given
  let (t, lead, empty, c) ← blockLines? literal indent (c.size + 1) [] false empty c
  let tail := match header.chomp with
    | .strip => []
    | .clip => lead
    | .keep => lead ++ empty
  some (t ++ tail, c)

end WireModel.Yaml
