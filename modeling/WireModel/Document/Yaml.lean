import WireModel.Document.Yaml.Kind
import WireModel.Document.Yaml.Merge
import WireModel.Document.Yaml.Token

/-!
# Reading YAML

The first document of a YAML text: blocks and brackets of lists and mappings, and scalars in all
their spellings. What follows the first document is not read, except for the few tokens a reader
looks ahead.

A mapping may have any document as a key, and keys may repeat.
-/

namespace WireModel.Yaml

/-- A document that is written as nothing. -/
def emptyScalar (line : Nat) : Doc := .scalar .null [] line

/-- Whether tokens start with one of some kinds. -/
def startsWith (ts : List Token) (kinds : List TokenKind) : Bool :=
  match ts with
  | t :: _ => kinds.contains t.kind
  | [] => true

/-- The line of the next token. -/
def lineOf : List Token → Nat
  | t :: _ => t.line
  | [] => 0

mutual

/-- The document some tokens start with, and the tokens behind it. Blocks may start only where
`block` says so, and a list may go on without a block of its own where `bare` says so. The fuel
bounds the number of steps. -/
def node? : (fuel : Nat) → (block bare : Bool) → List Token → Option (Doc × List Token)
  | 0, _, _, _ => none
  | _, _, _, [] => none
  | fuel + 1, block, bare, t :: ts =>
    let list (r : List Doc × List Token) : Doc × List Token := (.list r.1 t.line, r.2)
    let object (r : List (Doc × Doc) × List Token) : Doc × List Token :=
      (.object r.1 t.line, r.2)
    match t.kind with
    | .item => if bare then (bareItems? fuel (t :: ts)).map list else none
    | .scalar plain text =>
      some (.scalar (if plain then kindOf text else .text) text t.line, ts)
    | .flowSequenceStart => (flowItems? fuel true ts).map list
    | .flowMappingStart => (flowEntries? fuel true ts).map object
    | .sequenceStart => if block then (blockItems? fuel ts).map list else none
    | .mappingStart => if block then (blockEntries? fuel ts).map object else none
    | _ => none

/-- A document, or none written before one of some kinds of tokens. -/
def nodeUnless? : (fuel : Nat) → List TokenKind → (block bare : Bool) → List Token →
    Option (Doc × List Token)
  | 0, _, _, _, _ => none
  | fuel + 1, kinds, block, bare, ts =>
    if startsWith ts kinds then some (emptyScalar (lineOf ts), ts) else node? fuel block bare ts

/-- The items of a block list. -/
def blockItems? : (fuel : Nat) → List Token → Option (List Doc × List Token)
  | 0, _ => none
  | _, [] => none
  | fuel + 1, t :: ts =>
    match t.kind with
    | .item => do
      let (x, ts) ← nodeUnless? fuel [.item, .blockEnd] true false ts
      let (xs, ts) ← blockItems? fuel ts
      some (x :: xs, ts)
    | .blockEnd => some ([], ts)
    | _ => none

/-- The items of a list that has no block of its own. -/
def bareItems? : (fuel : Nat) → List Token → Option (List Doc × List Token)
  | 0, _ => none
  | _, [] => none
  | fuel + 1, t :: ts =>
    match t.kind with
    | .item => do
      let (x, ts) ← nodeUnless? fuel [.item, .key, .value, .blockEnd] true false ts
      let (xs, ts) ← bareItems? fuel ts
      some (x :: xs, ts)
    | _ => some ([], t :: ts)

/-- The entries of a block mapping. -/
def blockEntries? : (fuel : Nat) → List Token → Option (List (Doc × Doc) × List Token)
  | 0, _ => none
  | _, [] => none
  | fuel + 1, t :: ts =>
    match t.kind with
    | .key => do
      let (k, ts) ← nodeUnless? fuel [.key, .value, .blockEnd] true true ts
      let (v, ts) ← blockValue? fuel ts
      let (es, ts) ← blockEntries? fuel ts
      some ((k, v) :: es, ts)
    | .blockEnd => some ([], ts)
    | _ => none

/-- The value of an entry of a block mapping. -/
def blockValue? : (fuel : Nat) → List Token → Option (Doc × List Token)
  | 0, _ => none
  | _, [] => none
  | fuel + 1, t :: ts =>
    match t.kind with
    | .value => nodeUnless? fuel [.key, .value, .blockEnd] true true ts
    | _ => some (emptyScalar t.line, t :: ts)

/-- The items of a list in brackets. -/
def flowItems? : (fuel : Nat) → (first : Bool) → List Token → Option (List Doc × List Token)
  | 0, _, _ => none
  | _, _, [] => none
  | fuel + 1, first, t :: ts =>
    if t.kind == .flowSequenceEnd then some ([], ts)
    else if first then flowItem? fuel (t :: ts)
    else if t.kind == .comma then
      match ts with
      | [] => none
      | u :: us => if u.kind == .flowSequenceEnd then some ([], us) else flowItem? fuel ts
    else none

/-- An item of a list in brackets, and those behind it. A single entry may stand as an item. -/
def flowItem? : (fuel : Nat) → List Token → Option (List Doc × List Token)
  | 0, _ => none
  | _, [] => none
  | fuel + 1, t :: ts => do
    let (x, ts) ← if t.kind == .key then do
        let ends := [TokenKind.value, .comma, .flowSequenceEnd]
        let (k, ts) ← if startsWith ts ends then some (emptyScalar (lineOf ts), ts.drop 1)
          else node? fuel false false ts
        let (v, ts) ← flowValue? fuel .flowSequenceEnd ts
        some (.object [(k, v)] t.line, ts)
      else node? fuel false false (t :: ts)
    let (xs, ts) ← flowItems? fuel false ts
    some (x :: xs, ts)

/-- The value of an entry in brackets. -/
def flowValue? : (fuel : Nat) → TokenKind → List Token → Option (Doc × List Token)
  | 0, _, _ => none
  | _, _, [] => none
  | fuel + 1, close, t :: ts =>
    if t.kind == .value then nodeUnless? fuel [.comma, close] false false ts
    else some (emptyScalar t.line, t :: ts)

/-- The entries of a mapping in braces. -/
def flowEntries? : (fuel : Nat) → (first : Bool) → List Token →
    Option (List (Doc × Doc) × List Token)
  | 0, _, _ => none
  | _, _, [] => none
  | fuel + 1, first, t :: ts =>
    if t.kind == .flowMappingEnd then some ([], ts)
    else if first then flowEntry? fuel (t :: ts)
    else if t.kind == .comma then
      match ts with
      | [] => none
      | u :: us => if u.kind == .flowMappingEnd then some ([], us) else flowEntry? fuel ts
    else none

/-- An entry of a mapping in braces, and those behind it. A key may stand alone. -/
def flowEntry? : (fuel : Nat) → List Token → Option (List (Doc × Doc) × List Token)
  | 0, _ => none
  | _, [] => none
  | fuel + 1, t :: ts => do
    let (e, ts) ← if t.kind == .key then do
        let (k, ts) ← nodeUnless? fuel [.value, .comma, .flowMappingEnd] false false ts
        let (v, ts) ← flowValue? fuel .flowMappingEnd ts
        some ((k, v), ts)
      else do
        let (k, ts) ← node? fuel false false (t :: ts)
        some ((k, emptyScalar (lineOf ts)), ts)
    let (es, ts) ← flowEntries? fuel false ts
    some (e :: es, ts)

end

/-- Whether what follows a document can be read as far as it is looked at. -/
def endsWell (ts : List Token) : Bool := !startsWith ts [.broken]

/-- The document some tokens start with, if there is one. The outer option tells whether they can
be read. -/
def firstDocument? (ts : List Token) : Option (Option Doc) :=
  let explicit := startsWith ts [.documentStart]
  let content := if explicit then ts.drop 1 else ts
  if !explicit && startsWith ts [.textEnd] then some none
  else
    let r := if explicit && startsWith content [.documentStart, .documentEnd, .textEnd] then
        some (emptyScalar (lineOf content), content)
      else node? (4 * ts.length + 4) true false content
    match r with
    | some (d, rest) => if endsWell rest then some (some (settled d)) else none
    | none => none

/-- The first document of a text, if there is one. The outer option tells whether the text can be
read. -/
def document? (t : Text) : Option (Option Doc) := do
  let cs ← characters? t
  firstDocument? (tokens cs)

end WireModel.Yaml
