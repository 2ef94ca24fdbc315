import WireModel.Text.Rune
import WireModel.Text.Letter
import WireModel.Text.Punctuation

/-!
# Links in documentation texts

A paragraph may hold addresses, words between brackets, and doubled quotes. Addresses and
identifiers are kept as they are; words between brackets are a link if the text gives a target for
them, or if they name a package; everywhere else doubled quotes become the quotes of print.

The main function is `linked`, which writes a paragraph in its usual form and says which targets it
refers to.
-/

namespace WireModel.Source.DocText

/-- A blank or tab. -/
def isPad (b : UInt8) : Bool := b == ' '.toUInt8 || b == '\t'.toUInt8

/-! ## Addresses -/

/-- The schemes of addresses. -/
def schemes : List Text :=
  List.map Text.ofString ["file", "ftp", "gopher", "http", "https", "mailto", "nntp"]

/-- A letter or digit, or one of some other bytes. -/
def isAmong (others : String) (b : UInt8) : Bool :=
  Text.isLetter b || Text.isDigit b || (Text.ofString others).contains b

/-- A byte of a host. -/
def isHostByte (b : UInt8) : Bool := isAmong "_@-.[]:" b

/-- A mark that may stand inside a path but does not end one. -/
def isStop (b : UInt8) : Bool := (Text.ofString ".,:;?!").contains b

/-- A byte of a path that may also end one. -/
def isPathByte (b : UInt8) : Bool := isAmong "$'()*+&#=@~_/-[]\x7b\x7d%" b

/-- The bracket that closes another. -/
def closer? (b : UInt8) : Option UInt8 :=
  if b == '('.toUInt8 then some ')'.toUInt8
  else if b == '['.toUInt8 then some ']'.toUInt8
  else if b == '\x7b'.toUInt8 then some '\x7d'.toUInt8
  else none

/-- A closing bracket. -/
def isCloser (b : UInt8) : Bool := (Text.ofString ")]\x7d").contains b

/-- The length of the longest path that does not end inside brackets. `closers` are the brackets
that wait to be closed, `n` is the number of bytes read, `best` the longest path among them. -/
def pathLength : (closers : List UInt8) → (n best : Nat) → Text → Nat
  | _, _, best, [] => best
  | closers, n, best, b :: bs =>
    if isStop b then pathLength closers (n + 1) best bs
    else if !isPathByte b then best
    else
      match closer? b with
      | some c => pathLength (c :: closers) (n + 1) best bs
      | none =>
        if isCloser b then
          match closers with
          | [] => best
          | c :: cs =>
            if c == b then pathLength cs (n + 1) (if cs.isEmpty then n + 1 else best) bs else best
        else pathLength closers (n + 1) (if closers.isEmpty then n + 1 else best) bs

/-- The length of the address a text starts with. A host neither starts nor ends with a stop. -/
def addressLength? (t : Text) : Option Nat := do
  let scheme ← schemes.find? fun s => (s ++ Text.ofString "://").isPrefixOf t
  let start := scheme.length + 3
  let run := (t.drop start).takeWhile isHostByte
  let first ← run.head?
  if isStop first then none
  let host := (run.reverse.dropWhile isStop).length
  pure (start + host + pathLength [] 0 0 (t.drop (start + host)))

/-! ## Identifiers -/

/-- The length of the identifier a text starts with, after `skip` more bytes of a letter. Past
ASCII only letters belong to it. -/
def identLength : (isFirst : Bool) → (skip : Nat) → Text → Nat
  | _, _, [] => 0
  | isFirst, skip + 1, _ :: bs => identLength isFirst skip bs + 1
  | isFirst, 0, b :: bs =>
    if b < 0x80 then
      if Text.isLetter b || b == '_'.toUInt8 || (!isFirst && Text.isDigit b) then
        identLength false 0 bs + 1
      else 0
    else
      let (r, more) := Text.firstRune b bs
      if Text.isLetterRune r.codePoint then identLength false more bs + 1 else 0

/-- Whether a text is an identifier that starts with a capital. -/
def isExported (t : Text) : Bool :=
  !t.isEmpty && identLength true 0 t == t.length &&
    t.runes.head?.any fun r => Text.isCapitalRune r.codePoint

/-! ## Quotes -/

/-- A text with the quotes of print for doubled ones. `plain` gives the number of bytes at the start
of a text that stay as they are. Three back quotes stay, and so does a run of them as far behind
these as they stand behind the start. The fuel bounds the number of steps. -/
def curlFrom (plain : Text → Nat) : (fuel : Nat) → (start : Nat) → Text → Text
  | 0, _, t => t
  | _ + 1, _, [] => []
  | fuel + 1, start, b :: bs =>
    let t := b :: bs
    let keep (n : Nat) : Text := t.take n ++ curlFrom plain fuel (start + n) (t.drop n)
    let n := plain t
    if 0 < n then keep n
    else if ("\x60\x60\x60" : Text).isPrefixOf t then
      keep (3 + ((t.drop (start + 3)).takeWhile (· == '\x60'.toUInt8)).length)
    else if ("\x60\x60" : Text).isPrefixOf t then "“" ++ curlFrom plain fuel (start + 2) (t.drop 2)
    else if ("''" : Text).isPrefixOf t then "”" ++ curlFrom plain fuel (start + 2) (t.drop 2)
    else b :: curlFrom plain fuel (start + 1) bs

/-- The words of a link with the quotes of print. -/
def curlWords (t : Text) : Text := curlFrom (fun _ => 0) t.length 0 t

/-- A text outside of links with the quotes of print; addresses and identifiers stay. -/
def curl (t : Text) : Text :=
  curlFrom (fun t => (addressLength? t).getD (identLength true 0 t)) t.length 0 t

/-! ## Names of packages -/

/-- The packages that are known by one word. -/
def wellKnownPackages : List Text :=
  List.map Text.ofString ["bufio", "bytes", "cmp", "context", "crypto", "embed", "encoding", "errors",
    "expvar", "flag", "fmt", "hash", "html", "image", "io", "iter", "log", "maps", "math", "mime",
    "net", "os", "path", "plugin", "reflect", "regexp", "runtime", "slices", "sort", "strconv",
    "strings", "structs", "sync", "syscall", "testing", "time", "unicode", "unique", "unsafe",
    "weak"]

/-- Whether a text is an import path of several segments. -/
def isImportPath (t : Text) : Bool :=
  t.contains '/'.toUInt8 && t.head? != some '-'.toUInt8 &&
    (t.splitOn '/'.toUInt8).all fun s =>
      !s.isEmpty && s.head? != some '.'.toUInt8 && s.getLast? != some '.'.toUInt8 &&
        s.all (isAmong "-.~_+")

/-- A text without the exported name behind its last dot, if it ends with one; an exported name
alone is cut off, too. -/
def cutExported? (t : Text) : Option Text :=
  let (before, name) : Text × Text := (t.cutLast? '.'.toUInt8).getD ([], t)
  if isExported name then some before else none

/-- Whether the words of a link name a package, or something exported from one. -/
def namesPackage (words : Text) : Bool :=
  let t : Text := (Text.stripStart? "*" words).getD words
  let package := match cutExported? t with
    | none => t
    | some before => (cutExported? before).getD before
  wellKnownPackages.contains package || isImportPath package

/-- Whether a link may stand next to a rune. -/
def mayTouch (r : Rune) : Bool :=
  match r.codePoint with
  | 0x09 | 0x0A | 0x20 => true
  | c => Text.isPunctuation c

/-! ## Paragraphs -/

/-- A paragraph that is being read. Texts are kept in reverse. -/
structure LinkState where
  /-- What is written so far, and the words of the targets that were met. -/
  done : Text := []
  used : List Text := []
  /-- The text after the last link. -/
  plain : Text := []
  /-- The text after a bracket that is open, and its words. A bracket that is opened again goes on
  with the words of the one before. -/
  inside : Option Text := none
  words : Text := []

namespace LinkState

/-- The text after the last link, with an open bracket taken back. -/
def pending (s : LinkState) : Text :=
  match s.inside with
  | none => s.plain
  | some t => t ++ '['.toUInt8 :: s.plain

/-- A link is closed. -/
def close (s : LinkState) (link : Text) (isTarget : Bool) : LinkState :=
  let text : Text := curl s.plain.reverse ++ "[" ++ curlWords link ++ "]"
  { done := text.reverse ++ s.done
    used := if isTarget then s.words.reverse :: s.used else s.used }

/-- One more byte, in front of the rest of the paragraph. -/
def step (targets : List Text) (s : LinkState) (b : UInt8) (rest : Text) : LinkState :=
  if b == '['.toUInt8 then { s with plain := s.pending, inside := some [] }
  else if b == ']'.toUInt8 then
    match s.inside with
    | none => { s with plain := b :: s.plain, words := [] }
    | some t =>
      let link := t.reverse
      if targets.contains s.words.reverse then s.close link true
      else if (Text.runes s.plain.reverse).getLast?.all mayTouch &&
          (Text.runes (rest.take 4)).head?.all mayTouch && namesPackage link then
        s.close link false
      else { s with plain := b :: s.pending, inside := none, words := [] }
  else
    match s.inside with
    | none => { s with plain := b :: s.plain }
    | some t =>
      let w := if b == '\n'.toUInt8 || b == '\t'.toUInt8 then ' '.toUInt8 else b
      { s with inside := some (b :: t), words := w :: s.words }

/-- The whole paragraph. -/
def run (targets : List Text) (s : LinkState) : Text → LinkState
  | [] => s
  | b :: bs => run targets (s.step targets b bs) bs

end LinkState

/-- A paragraph in its usual form, and the words of the targets it refers to. -/
def linked (targets : List Text) (t : Text) : Text × List Text :=
  let s := LinkState.run targets {} t
  (s.done.reverse ++ curl s.pending.reverse, s.used)

end WireModel.Source.DocText
