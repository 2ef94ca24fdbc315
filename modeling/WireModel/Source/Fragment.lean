import WireModel.Source.Gap
import WireModel.Source.Syntax

/-!
# Source between comments

A documentation text that is written as a comment may end before its comment does: what follows is
source of its own. Simple declarations, fields and constants on one line are read here and written in
their usual form; anything else makes no valid file.
-/

namespace WireModel.Source.Fragment

/-! ## Words and marks -/

/-- A text without the blanks it starts with. -/
def skipBlanks (t : Text) : Text := t.dropWhile isSpacing

/-- The word a text starts with, and the rest. -/
def word? (t : Text) : Option (Text × Text) :=
  let t := skipBlanks t
  let w : Text := Text.ofRunes ((Text.runes t).takeWhile isIdentRune)
  if (Text.runes t).head?.any isIdentStart then some (w, t.drop w.length) else none

/-- The identifier a text starts with, and the rest. -/
def ident? (t : Text) : Option (Text × Text) :=
  (word? t).filter fun (w, _) => isIdentifier w

/-- The rest of a text that starts with a keyword. -/
def keyword? (k t : Text) : Option Text :=
  (word? t).bind fun (w, rest) => if w == k then some rest else none

/-- The rest of a text that starts with a mark. -/
def mark? (m t : Text) : Option Text := Text.stripStart? m (skipBlanks t)

/-- Whether nothing more stands on a line but a comment. -/
def atEnd (t : Text) : Bool :=
  let t := skipBlanks t
  t.isEmpty || t.head? == some '\n'.toUInt8 || t.head? == some ';'.toUInt8 ||
    ("//" : Text).isPrefixOf t || ("/*" : Text).isPrefixOf t

/-- Items with a mark between them. -/
def list? (item? : Text → Option (Text × Text)) : (fuel : Nat) → Text → Option (Text × Text)
  | 0, _ => none
  | fuel + 1, t => do
    let (x, rest) ← item? t
    match mark? "," rest with
    | none => pure (x, rest)
    | some rest =>
      let (xs, rest) ← list? item? fuel rest
      pure (x ++ ", " ++ xs, rest)

/-- Identifiers with commas between them. -/
def idents? (t : Text) : Option (Text × Text) := list? ident? (t.length + 1) t

/-! ## Literals -/

/-- A number without a fraction or exponent. -/
def number? (t : Text) : Option (Text × Text) :=
  let t := skipBlanks t
  let digits : Text := t.takeWhile fun b => Text.isDigit b || Text.isLetter b || b == '_'.toUInt8
  let rest : Text := t.drop digits.length
  let isPlain := digits.all Text.isDigit && (digits.length == 1 || digits.head? != some '0'.toUInt8)
  let isHex := ("0x" : Text).isPrefixOf digits && 2 < digits.length &&
    (digits.drop 2).all fun b => (Text.hexValue? b).isSome
  let fraction : Text :=
    match rest with
    | b :: more => if b == '.'.toUInt8 && isPlain then b :: more.takeWhile Text.isDigit else []
    | [] => []
  let after := rest.drop fraction.length
  if digits.isEmpty || !(isPlain || isHex) || after.head?.any Text.isLetter then none
  else some (digits ++ fraction, after)

/-- The text up to a closing quote, and the rest. A backslash hides the byte behind it. -/
def quoted? (quote : UInt8) : Text → Option (Text × Text)
  | [] => none
  | b :: bs =>
    if b == quote then some ([b], bs)
    else if b == '\n'.toUInt8 then none
    else if b == '\\'.toUInt8 && quote != '\x60'.toUInt8 then
      match bs with
      | [] => none
      | c :: cs =>
        if c == quote || (Text.ofString "abfnrtv\\").contains c then
          (quoted? quote cs).map fun (t, rest) => (b :: c :: t, rest)
        else none
    else (quoted? quote bs).map fun (t, rest) => (b :: t, rest)

/-- A quoted text. -/
def literal? (t : Text) : Option (Text × Text) :=
  match skipBlanks t with
  | b :: bs =>
    if b == '"'.toUInt8 || b == '\x60'.toUInt8 then
      (quoted? b bs).map fun (t, rest) => (b :: t, rest)
    else none
  | [] => none

/-! ## Types -/

/-- A type. The fuel bounds its depth. -/
def type? : (fuel : Nat) → Text → Option (Text × Text)
  | 0, _ => none
  | fuel + 1, t =>
    let under (head : Text) (rest : Text) : Option (Text × Text) :=
      (type? fuel rest).map fun (x, rest) => (head ++ x, rest)
    match mark? "*" t with
    | some rest => under "*" rest
    | none =>
    match mark? "[" t with
    | some rest =>
      match mark? "]" rest with
      | some rest => under "[]" rest
      | none => do
        let (n, rest) ← number? rest
        let rest ← mark? "]" rest
        under ("[" ++ n ++ "]") rest
    | none =>
    match mark? "(" t with
    | some rest => do
      let (x, rest) ← type? fuel rest
      let rest ← mark? ")" rest
      pure ("(" ++ x ++ ")", rest)
    | none =>
    match keyword? "map" t with
    | some rest => do
      let rest ← mark? "[" rest
      let (k, rest) ← type? fuel rest
      let rest ← mark? "]" rest
      under ("map[" ++ k ++ "]") rest
    | none =>
    match keyword? "chan" t with
    | some rest => under "chan " rest
    | none =>
    match keyword? "struct" t with
    | some rest => do
      let rest ← (mark? "\x7b" rest).bind (mark? "\x7d")
      pure ("struct\x7b\x7d", rest)
    | none =>
    match keyword? "interface" t with
    | some rest => do
      let rest ← (mark? "\x7b" rest).bind (mark? "\x7d")
      pure ("interface\x7b\x7d", rest)
    | none =>
    match keyword? "func" t with
    | some rest => do
      let rest ← (mark? "(" rest).bind (mark? ")")
      match type? fuel rest with
      | some (x, rest) => pure ("func() " ++ x, rest)
      | none => pure ("func()", rest)
    | none => do
      let (x, rest) ← ident? t
      match mark? "." rest with
      | none => pure (x, rest)
      | some rest =>
        let (y, rest) ← ident? rest
        pure (x ++ "." ++ y, rest)

/-- The type a text starts with. -/
def typeOf? (t : Text) : Option (Text × Text) := type? (t.length + 1) t

/-! ## Expressions -/

mutual

/-- An operand with what is applied to it. The fuel bounds its depth. -/
def operand? : (fuel : Nat) → Text → Option (Text × Text)
  | 0, _ => none
  | fuel + 1, t =>
    let t := skipBlanks t
    match t with
    | [] => none
    | b :: bs =>
      if (Text.ofString "+-!^*&").contains b then
        (operand? fuel bs).map fun (x, rest) => (b :: x, rest)
      else if b == '('.toUInt8 then do
        let (x, rest) ← operand? fuel bs
        let rest ← mark? ")" rest
        applied? fuel ("(" ++ x ++ ")") rest
      else do
        let (x, rest) ← (literal? t).or ((number? t).or (ident? t))
        applied? fuel x rest

/-- What is applied to an operand: members and calls. -/
def applied? : (fuel : Nat) → Text → Text → Option (Text × Text)
  | 0, _, _ => none
  | fuel + 1, x, t =>
    match mark? "." t with
    | some rest => do
      let (m, rest) ← ident? rest
      applied? fuel (x ++ "." ++ m) rest
    | none =>
      match mark? "(" t with
      | some rest =>
        match mark? ")" rest with
        | some rest => applied? fuel (x ++ "()") rest
        | none => do
          let (xs, rest) ← operands? fuel rest
          let rest ← mark? ")" rest
          applied? fuel (x ++ "(" ++ xs ++ ")") rest
      | none => some (x, t)

/-- Operands with commas between them. -/
def operands? : (fuel : Nat) → Text → Option (Text × Text)
  | 0, _ => none
  | fuel + 1, t => do
    let (x, rest) ← operand? fuel t
    match mark? "," rest with
    | none => pure (x, rest)
    | some rest =>
      let (xs, rest) ← operands? fuel rest
      pure (x ++ ", " ++ xs, rest)

end

/-- The values a text starts with. -/
def values? (t : Text) : Option (Text × Text) := operands? (2 * t.length + 2) t

/-- The values behind an equals sign, if there is one. -/
def assigned? (t : Text) : Option (Option Text × Text) :=
  match mark? "=" t with
  | none => some (none, t)
  | some rest => (values? rest).map fun (v, rest) => (some v, rest)

/-! ## Declarations -/

/-- Names with a type and values, of which the first may be left out. -/
structure Binding where
  names : Text
  type : Option Text
  values : Option Text

/-- A binding of names. -/
def binding? (t : Text) : Option (Binding × Text) := do
  let (names, rest) ← idents? t
  let (type, rest) := match typeOf? rest with
    | some (x, rest) => (some x, rest)
    | none => (none, rest)
  let (values, rest) ← assigned? rest
  pure (⟨names, type, values⟩, rest)

/-- A binding on one line. -/
def Binding.text (b : Binding) : Text :=
  b.names ++ ((b.type.map fun x => Text.ofString " " ++ x).getD []) ++
    ((b.values.map fun v => Text.ofString " = " ++ v).getD [])

/-- A declaration of a file. -/
def declaration? (t : Text) : Option ((ItemKind × Text) × Text) :=
  match keyword? "var" t with
  | some rest => do
    let (b, rest) ← binding? rest
    if b.type.isNone && b.values.isNone then none
    pure ((.var, "var " ++ b.text), rest)
  | none =>
  match keyword? "const" t with
  | some rest => do
    let (b, rest) ← binding? rest
    if b.values.isNone then none
    pure ((.const, "const " ++ b.text), rest)
  | none =>
  match keyword? "type" t with
  | some rest => do
    let (x, rest) ← ident? rest
    match mark? "=" rest with
    | some rest =>
      let (y, rest) ← typeOf? rest
      pure ((.type, "type " ++ x ++ " = " ++ y), rest)
    | none =>
      let (y, rest) ← typeOf? rest
      pure ((.type, "type " ++ x ++ " " ++ y), rest)
  | none => do
    let rest ← keyword? "func" t
    let (f, rest) ← ident? rest
    let rest ← (mark? "(" rest).bind (mark? ")")
    let (result, rest) : Text × Text := match typeOf? rest with
      | some (x, rest) => (" " ++ x, rest)
      | none => ([], rest)
    let rest ← (mark? "\x7b" rest).bind (mark? "\x7d")
    pure ((.func, "func " ++ f ++ "()" ++ result ++ " \x7b\x7d"), rest)

/-- A field of a struct: names and a type, or an embedded type. -/
def field? (t : Text) : Option (List Text × Text) :=
  match (typeOf? t).filter fun (_, rest) => atEnd rest with
  | some (x, rest) =>
    if (mark? "*" t).isSome || (word? t).isSome then some ([x], rest) else none
  | none => do
    let (names, rest) ← idents? t
    let (type, rest) ← typeOf? rest
    pure ([names, type], rest)

/-! ## Texts between comments -/

/-- Whether a comment that follows ends the line, or something behind it does. -/
def endsLine : (fuel : Nat) → Text → Bool
  | 0, _ => false
  | fuel + 1, t =>
    let t := skipBlanks t
    if ("/*" : Text).isPrefixOf t then
      match Comment.blockBody? (t.drop 2) with
      | none => false
      | some (body, rest) => body.contains '\n'.toUInt8 || endsLine fuel rest
    else atEnd t

/-- What follows a declaration, without the mark that ends it. -/
def ended? (t : Text) : Option Text :=
  match mark? ";" t with
  | some rest => some rest
  | none => if endsLine (t.length + 1) t then some t else none

/-- The declarations in a text with the texts before them, and the text behind the last. The fuel
bounds their number. -/
def split? {α : Type} (read? : Text → Option (α × Text)) :
    (fuel : Nat) → Text → Option (List (Text × α) × Text)
  | 0, _ => none
  | fuel + 1, t => do
    let (_, rest) ← Gap.read? t
    if rest.isEmpty then pure ([], t)
    else
      let (x, after) ← read? rest
      let after ← ended? after
      let (more, last) ← split? read? fuel after
      pure ((t.take (t.length - rest.length), x) :: more, last)

end WireModel.Source.Fragment
