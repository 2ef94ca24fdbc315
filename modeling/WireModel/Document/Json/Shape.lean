import WireModel.Document.Draft
import WireModel.Document.Json.Skip

/-!
# Reading JSON of a known shape

A text is read for what is wanted from it: a `Shape` says what that is, and everything else is passed
over. The first thing that is wrong ends the reading.

The name of a field is looked for letter by letter among the fields that are still possible, in any
case. An escape that means nothing hides the letter behind it, and a name with escapes may break off
early: what counts is that it is written with as many bytes as the first possible field has letters.
-/

namespace WireModel.Json

/-- What is wanted from a value. The kinds of records are given by a type. -/
inductive Shape (κ : Type) where
  | text
  | flag
  /-- An integer or a text. -/
  | constant
  | list (item : Shape κ)
  /-- An object with any keys. -/
  | table (value : Shape κ)
  /-- An object with known fields. -/
  | record (kind : κ)
  /-- A text or a record, which is read by itself. -/
  | textOr (kind : κ)

/-! ## Names of fields -/

/-- A field that a name may still be: the letters that are missing, how many it has, and what it
stands for. -/
structure Possible (α : Type) where
  missing : Text
  size : Nat
  field : α

/-- The fields whose next letter is a given one. -/
def narrow {α : Type} (b : UInt8) (ps : List (Possible α)) : List (Possible α) :=
  ps.filterMap fun p =>
    match p.missing with
    | c :: cs => if c == Text.lowerByte b then some { p with missing := cs } else none
    | [] => none

/-- The field a name stands for, and the rest of the text behind its closing quote. `size` counts the
bytes of the name so far, and `skip` those that belong to an escape already read. -/
def fieldFrom? {α : Type} : (ps : List (Possible α)) → (size skip : Nat) → Text →
    Option (Option α × Text)
  | _, _, _, [] => none
  | ps, size, skip + 1, _ :: bs => fieldFrom? ps (size + 1) skip bs
  | ps, size, 0, b :: bs =>
    let unknown? (t : Text) : Option (Option α × Text) := (skipString? t).map fun rest => (none, rest)
    if b == '"'.toUInt8 then
      some ((ps.head?.filter fun p => decide (p.size ≤ size)).map (·.field), bs)
    else if b == 0 then none
    else if b == '\\'.toUInt8 then
      match bs with
      | [] => none
      | e :: es =>
        if e == 'u'.toUInt8 then
          match es with
          | p :: q :: r :: s :: _ =>
            let code := escapeCode p q r s
            let ps' := if code < 0x80 then narrow code.toUInt8 ps else []
            if ps'.isEmpty then unknown? es else fieldFrom? ps' (size + 1) 5 bs
          | _ => none
        else if (shortEscape? e).isSome then unknown? es
        else fieldFrom? ps (size + 1) 2 bs
    else
      let ps' := narrow b ps
      if ps'.isEmpty then unknown? bs else fieldFrom? ps' (size + 1) 0 bs

/-- The field a name stands for, if it is a known one, and the rest of the text. -/
def field? {α : Type} (fields : List (Text × α)) (t : Text) : Option (Option (Text × α) × Text) :=
  match skipSpace t with
  | [] => none
  | b :: bs =>
    if b == '"'.toUInt8 then
      fieldFrom? ((Text.sortByKey fields).map fun f => ⟨f.1, f.1.length, f⟩) 0 0 bs
    else none

/-! ## Scalars -/

/-- How strings are read. -/
def ownStrings : StringRules := { hexOnly := true }

/-- What an optional outcome is, where nothing means that the text has another form. -/
def orForm {α : Type} (x : Option α) : Except Trouble α :=
  match x with
  | some a => .ok a
  | none => .error .form

/-- A word that a text starts with, and the rest of the text. -/
def word? (t : Text) : List (Text × ScalarKind) → Option (Doc × Text)
  | [] => none
  | (w, kind) :: ws =>
    match Text.stripStart? w t with
    | some rest => some (.scalar kind w 0, rest)
    | none => word? t ws

/-- A text or a null. -/
def textAt? (t : Text) : Option (Doc × Text) :=
  match skipSpace t with
  | [] => none
  | b :: bs =>
    if b == '"'.toUInt8 then
      (stringBody? ownStrings 0 bs).map fun (s, rest) => (.scalar .text s 0, rest)
    else word? (b :: bs) [("null", .null)]

/-- Whether nothing but white space is left, before a NUL at most. -/
def isEnd (t : Text) : Bool :=
  match skipSpace t with
  | [] => true
  | b :: _ => b == 0

/-- A constant as it is written. -/
def constantOf (source : Text) : Except Trouble Doc :=
  if source.head? == some '"'.toUInt8 then
    match textAt? source with
    | some (d, rest) => if isEnd rest then .ok d else .error .form
    | none => .error .form
  else
    match Text.toSigned? 64 source with
    | some n => .ok (.scalar (.int n) source 0)
    | none => .error (.noConstant [] (source ++ " "))

/-! ## Values -/

section

variable {κ : Type} (fields : κ → List (Text × Shape κ))

mutual

/-- The value a text starts with, and the rest of the text. The fuel bounds the number of steps;
`depth` is how deep the value is nested. -/
def valueAt : (fuel : Nat) → Shape κ → (depth : Nat) → Text → Except Trouble (Doc × Text)
  | 0, _, _, _ => .error .form
  | fuel + 1, shape, depth, t =>
    let t := skipSpace t
    let isNull := t.head? == some 'n'.toUInt8
    let nullAt := orForm (word? t [("null", .null)])
    let open? (b : UInt8) : Except Trouble Text :=
      if maxDepth ≤ depth then .error .form
      else orForm ((Text.stripStart? [b] t).map skipSpace)
    match shape with
    | .text => orForm (textAt? t)
    | .flag => orForm (word? t [("null", .null), ("true", .bool true), ("false", .bool false)])
    | .constant => do
      let (source, rest) ← orForm (rawValue? depth t)
      let d ← constantOf source
      pure (d, rest)
    | .textOr kind =>
      if isNull then nullAt
      else do
        let (source, rest) ← orForm (rawValue? depth t)
        let shape : Shape κ := if source.head? == some '"'.toUInt8 then .text else .record kind
        let (d, left) ← valueAt fuel shape 0 source
        if isEnd left then pure (d, rest) else .error .form
    | .list item =>
      if isNull then nullAt
      else do
        let inner ← open? '['.toUInt8
        match Text.stripStart? "]" inner with
        | some rest => pure (.list [] 0, rest)
        | none =>
          let (xs, rest) ← itemsAt fuel item (depth + 1) inner
          pure (.list xs 0, rest)
    | .table value =>
      if isNull then nullAt
      else do
        let inner ← open? '\x7b'.toUInt8
        match Text.stripStart? "\x7d" inner with
        | some rest => pure (.object [] 0, rest)
        | none =>
          let (es, rest) ← entriesAt fuel value (depth + 1) inner
          pure (.object es 0, rest)
    | .record kind =>
      if isNull then nullAt
      else do
        let inner ← open? '\x7b'.toUInt8
        match Text.stripStart? "\x7d" inner with
        | some rest => pure (.object [] 0, rest)
        | none =>
          let (es, rest) ← membersAt fuel kind (depth + 1) inner
          pure (.object es 0, rest)

/-- The items of a list, with its closing bracket. -/
def itemsAt : (fuel : Nat) → Shape κ → (depth : Nat) → Text → Except Trouble (List Doc × Text)
  | 0, _, _, _ => .error .form
  | fuel + 1, item, depth, t => do
    let (x, rest) ← valueAt fuel item depth t
    let rest := skipSpace rest
    match Text.stripStart? "," rest with
    | some rest =>
      let (xs, rest) ← itemsAt fuel item depth rest
      pure (x :: xs, rest)
    | none => do
      let rest ← orForm (Text.stripStart? "]" rest)
      pure ([x], rest)

/-- The entries of an object with any keys, with its closing brace. -/
def entriesAt : (fuel : Nat) → Shape κ → (depth : Nat) → Text →
    Except Trouble (List (Doc × Doc) × Text)
  | 0, _, _, _ => .error .form
  | fuel + 1, value, depth, t => do
    let (key, rest) ← orForm (textAt? t)
    let key := match key with
      | .scalar _ name _ => Doc.scalar .text name 0
      | other => other
    let rest ← orForm (Text.stripStart? ":" (skipSpace rest))
    let (v, rest) ← valueAt fuel value depth rest
    let rest := skipSpace rest
    match Text.stripStart? "," rest with
    | some rest =>
      let (es, rest) ← entriesAt fuel value depth rest
      pure ((key, v) :: es, rest)
    | none => do
      let rest ← orForm (Text.stripStart? "\x7d" rest)
      pure ([(key, v)], rest)

/-- The known fields of an object, with its closing brace. -/
def membersAt : (fuel : Nat) → κ → (depth : Nat) → Text → Except Trouble (List (Doc × Doc) × Text)
  | 0, _, _, _ => .error .form
  | fuel + 1, kind, depth, t => do
    let (field, rest) ← orForm (field? (fields kind) t)
    let rest ← orForm (Text.stripStart? ":" (skipSpace rest))
    let (e, rest) ← match field with
      | some (name, shape) => do
        let (v, rest) ← valueAt fuel shape depth rest
        pure ([(Doc.scalar .text name 0, v)], rest)
      | none => do
        let rest ← orForm (skipValue? depth rest)
        pure ([], rest)
    let rest := skipSpace rest
    match Text.stripStart? "," rest with
    | some rest =>
      let (es, rest) ← membersAt fuel kind depth rest
      pure (e ++ es, rest)
    | none => do
      let rest ← orForm (Text.stripStart? "\x7d" rest)
      pure (e, rest)

end

/-- The record a text holds, with nothing behind it. Three steps per byte are always enough. -/
def record (kind : κ) (t : Text) : Except Trouble Doc := do
  let (d, rest) ← valueAt fields (3 * t.length + 3) (.record kind) 0 t
  if isEnd rest then pure d else .error .form

end

end WireModel.Json
