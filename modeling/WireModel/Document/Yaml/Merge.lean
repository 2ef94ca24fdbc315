import WireModel.Document.Basic

/-!
# Merging objects

An object may say that the entries of other objects belong to it as well. Its own entries come first,
and an entry that is already there stays; of several objects the first one counts.

After `settled` an object holds all its entries itself, and no key comes twice. What could not be
merged is left in it, under the key of the merge. An object that repeats keys becomes one that nobody
can read.
-/

namespace WireModel.Yaml

/-- Whether a document is the key of a merge. -/
def isMerge : Doc → Bool
  | .scalar .merge _ _ => true
  | _ => false

/-- An entry with a key that nobody can read. -/
def unreadable (line : Nat) : Doc × Doc := (.list [] line, .scalar .null [] line)

/-- The entries with one more. An entry with the same text as its key stays; an entry whose key was
recognised as something else than a text is replaced. Merged keys are texts. -/
def addEntry (es : List (Doc × Doc)) (e : Doc × Doc) : List (Doc × Doc) :=
  match e with
  | (.scalar .null _ _, _) => es
  | (.scalar .merge _ _, _) | (.list _ _, _) | (.object _ _, _) =>
    if es.any (fun x => Doc.sameKey x.1 e.1) then es else es ++ [e]
  | (.scalar _ name line, v) =>
    let key := Doc.scalar .text name line
    match es.find? fun x => Doc.sameKey x.1 key with
    | none => es ++ [(key, v)]
    | some (.scalar .text _ _, _) => es
    | some _ => es.map fun x => if Doc.sameKey x.1 key then (key, v) else x

/-- The entries with those of an object. -/
def addObject (key : Doc) (es : List (Doc × Doc)) : Doc → List (Doc × Doc)
  | .object inner _ => inner.foldl addEntry es
  | other => addEntry es (key, other)

/-- The entries of an object with what its merge says. -/
def mergeEntries (es : List (Doc × Doc)) : List (Doc × Doc) :=
  match es.find? fun e => isMerge e.1 with
  | none => es
  | some (key, value) =>
    let own := es.filter fun e => !isMerge e.1
    match value with
    | .list items _ => items.foldl (addObject key) own
    | value => addObject key own value

mutual

/-- A document whose objects hold all their entries themselves, every key once. -/
def settled : Doc → Doc
  | .scalar kind source line => .scalar kind source line
  | .list items line => .list (settledList items) line
  | .object es line =>
    .object (if Doc.repeatsKey es then [unreadable line] else mergeEntries (settledEntries es)) line

/-- Documents whose objects hold all their entries themselves. -/
def settledList : List Doc → List Doc
  | [] => []
  | x :: xs => settled x :: settledList xs

/-- Entries with values whose objects hold all their entries themselves. -/
def settledEntries : List (Doc × Doc) → List (Doc × Doc)
  | [] => []
  | (k, v) :: es => (k, settled v) :: settledEntries es

end

end WireModel.Yaml
