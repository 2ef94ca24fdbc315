import WireModel.Document.Basic
import WireModel.Number.Literal
import WireModel.Value.Basic

/-!
# Reading documents

How a document becomes a value of a given form. Reading goes on after something is wrong, so a
`Draft` holds a value together with everything that is wrong, in the order of the document.

A part is read *into* a value that is already there: what the document does not mention stays, and
where a key comes twice the later one adds to the earlier one.
-/

namespace WireModel

/-- What is wrong with a part of a document. -/
inductive Trouble where
  /-- The part is not of the form that is needed. -/
  | form
  /-- What is merged into an object is no object. -/
  | merge
  /-- The part is no constant, in words. -/
  | constant (words : Text)
  deriving DecidableEq, Inhabited

namespace Trouble

/-- The words of a trouble, if it has some. -/
def words? : Trouble → Option Text
  | form | merge => none
  | constant words => some words

/-- The trouble with something that is no constant. -/
def noConstant (line shown : Text) : Trouble :=
  .constant (line ++ "const value " ++ shown ++ "must be an integer or a string")

/-- Whether reading goes on after a trouble. -/
def isMild : Trouble → Bool
  | form => true
  | merge | constant _ => false

end Trouble

/-- A value read from a document, and what is wrong. -/
structure Draft (α : Type) where
  value : α
  troubles : List Trouble := []

namespace Draft

instance : Monad Draft where
  pure x := { value := x }
  bind r f :=
    let s := f r.value
    { value := s.value, troubles := r.troubles ++ s.troubles }

/-- A value that stays as it is because a part is not of the form that is needed. -/
def refuse {α : Type} (old : α) (t : Trouble := .form) : Draft α :=
  { value := old, troubles := [t] }

/-! ## Scalars -/

/-- A text: the spelling of any scalar. -/
def text (old : Text) : Doc → Draft Text
  | .scalar .null _ _ => pure old
  | .scalar _ source _ => pure source
  | _ => refuse old

/-- Words that are taken for a truth value where one is needed. -/
def truthOf? (word : Text) : Option Bool :=
  if (List.map Text.ofString ["y", "Y", "yes", "Yes", "YES", "on", "On", "ON"]).contains word then
    some true
  else if
    (List.map Text.ofString ["n", "N", "no", "No", "NO", "off", "Off", "OFF"]).contains word then
    some false
  else none

/-- A truth value. -/
def flag (old : Bool) : Doc → Draft Bool
  | .scalar .null _ _ => pure old
  | .scalar (.bool b) _ _ => pure b
  | .scalar .text source _ =>
    match truthOf? source with
    | some b => pure b
    | none => refuse old
  | _ => refuse old

/-- A constant: a 64 bit integer or a text. A null leaves out a constant. -/
def constant (old : Value) (doc : Doc) : Draft Value :=
  let line : Text := "line " ++ Text.ofNat doc.line ++ ": "
  match doc with
  | .scalar .null _ _ => pure old
  | .scalar .text s _ => pure (.text s)
  | .scalar (.int n) _ _ => if fitsSigned 64 n then pure (.int .int64 n) else refuse old
  | .scalar _ s _ => refuse old (.noConstant line (s.quote ++ " "))
  | _ => refuse old (.noConstant line [])

/-! ## Lists -/

/-- The items of a list, each read into the item that stood at its place. A null item stays null. -/
def readItems {α : Type} [Inhabited α] (read : α → Doc → Draft α) :
    List (Option α) → List Doc → Draft (List (Option α))
  | _, [] => pure []
  | old, x :: xs => do
    let here := (old.head?.getD none).getD default
    let item ← if x.isNull then pure none else some <$> read here x
    let items ← readItems read (old.drop 1) xs
    pure (item :: items)

/-- A list, which is none at all where it is null. -/
def items? {α : Type} [Inhabited α] (read : α → Doc → Draft α)
    (old : Option (List (Option α))) : Doc → Draft (Option (List (Option α)))
  | .scalar .null _ _ => pure none
  | .list xs _ => some <$> readItems read (old.getD []) xs
  | _ => refuse old

/-- A list, which is empty where it is null. -/
def items {α : Type} [Inhabited α] (read : α → Doc → Draft α) (old : List (Option α))
    (doc : Doc) : Draft (List (Option α)) :=
  (·.getD []) <$> items? read (some old) doc

/-- A list of texts. Nulls in it are left out. -/
def texts (old : List Text) (doc : Doc) : Draft (List Text) :=
  (·.filterMap id) <$> items text (old.map some) doc

/-! ## Objects -/

/-- The name a key stands for; a null stands for none. The key of a merge is left only where nothing
could be merged. -/
def keyName (k : Doc) : Draft (Option Text) :=
  match k with
  | .scalar .null _ _ => pure none
  | .scalar .merge _ _ => refuse none .merge
  | .scalar _ source _ => pure (some source)
  | _ => refuse none

/-- The entries of an object, each read into what came out before it. -/
def readEntries {α : Type} (read : α → Text → Doc → Draft α) : α → List (Doc × Doc) → Draft α
  | old, [] => pure old
  | old, (k, v) :: es => do
    let now ← match ← keyName k with
      | some n => read old n v
      | none => pure old
    readEntries read now es

/-- An object with known fields. -/
def fields {α : Type} (read : α → Text → Doc → Draft α) (old : α) : Doc → Draft α
  | .scalar .null _ _ => pure old
  | .object es _ => readEntries read old es
  | _ => refuse old

/-- The entries with the value of a key set. -/
def setEntry {β : Type} (es : List (Text × β)) (key : Text) (v : β) : List (Text × β) :=
  if es.any (·.1 == key) then es.map fun e => if e.1 == key then (key, v) else e
  else es ++ [(key, v)]

/-- A mapping from any keys to values of one form. -/
def mapping {β : Type} (read : Doc → Draft β) (old : List (Text × β)) :
    Doc → Draft (List (Text × β))
  | .scalar .null _ _ => pure []
  | .object es _ => readEntries (fun old k v => setEntry old k <$> read v) old es
  | _ => refuse old

/-- A mapping from texts to texts. A null value is an empty text. -/
def textMap (old : List (Text × Text)) (doc : Doc) : Draft (List (Text × Text)) :=
  mapping (text []) old doc

/-! ## The outcome -/

/-- The trouble that is reported: the first one that is not mild, and else the first one. -/
def reported? (ts : List Trouble) : Option Trouble := (ts.find? (!·.isMild)).or ts.head?

end Draft

end WireModel
