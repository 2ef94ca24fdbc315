import WireModel.Text.Rune
import WireModel.Spec.Type

/-!
# Reading types

A type is written as a word: the name of a scalar, `list`, `map` or `optional` followed by the
item type in brackets, or the name of a declaration, with an import alias and a dot in front of it
if it belongs to another module. White space may stand around every part.

A word is the longest run of letters, digits, underscores and dots. The names of scalars and
composites are reserved, so a word that is one of them is never a reference.
-/

namespace WireModel

/-- Why a text is no type. -/
inductive TypeFault where
  /-- No word stands where a type is expected. -/
  | noWord (text : Text)
  /-- A composite is not followed by an opening bracket. -/
  | noItem (text composite : Text)
  /-- The bracket of a composite is not closed. -/
  | unclosed (text : Text)
  /-- A word with dots is not an alias and a name. -/
  | badRef (word : Text)
  /-- Something follows the type. -/
  | trailing (text rest : Text)
  deriving DecidableEq, Inhabited

namespace TypeFault

/-- The wording of a fault. -/
def message : TypeFault → Text
  | noWord t => "spec: invalid type " ++ t.quote
  | noItem t c => "spec: invalid type " ++ t.quote ++ ": " ++ c ++ " requires an item type"
  | unclosed t => "spec: invalid type " ++ t.quote ++ ": missing ]"
  | badRef w => "spec: invalid reference " ++ w.quote
  | trailing t rest => "spec: invalid type " ++ t.quote ++ ": unexpected " ++ rest.quote

end TypeFault

namespace TypeExpr

/-- A byte of a word. -/
def isWordByte (b : UInt8) : Bool :=
  Text.isLetter b || Text.isDigit b || b == '_'.toUInt8 || b == '.'.toUInt8

/-- The word a text starts with, and the rest. -/
def splitWord (t : Text) : Text × Text := (t.takeWhile isWordByte, t.dropWhile isWordByte)

/-- The scalar type of a reserved word. -/
def scalarOf? (word : Text) : Option TypeExpr :=
  if word == "bool" then some (scalar .bool)
  else if word == "i8" then some (int 8)
  else if word == "i16" then some (int 16)
  else if word == "i32" then some (int 32)
  else if word == "i64" then some (int 64)
  else if word == "f64" then some float
  else if word == "bigint" then some (scalar .bigint)
  else if word == "decimal" then some (scalar .decimal)
  else if word == "string" then some (scalar .string)
  else if word == "bytes" then some (scalar .bytes)
  else if word == "json" then some (scalar .json)
  else none

/-- The composite kind of a reserved word. -/
def compositeOf? (word : Text) : Option Kind :=
  if word == "list" then some .list
  else if word == "map" then some .map
  else if word == "optional" then some .optional
  else none

/-- The reference a word writes. -/
def refOf (word : Text) : Except TypeFault TypeExpr :=
  match word.cut? '.'.toUInt8 with
  | none => .ok (ref [] word)
  | some (ns, name) =>
    if ns == [] || name == [] || name.contains '.'.toUInt8 then .error (.badRef word)
    else .ok (ref ns name)

theorem length_trimStartAfter_le (skip : Nat) (t : Text) :
    (Text.trimStartAfter skip t).length ≤ t.length := by
  induction t generalizing skip with
  | nil => cases skip <;> simp [Text.trimStartAfter]
  | cons b bs ih =>
    cases skip with
    | zero =>
      simp only [Text.trimStartAfter]
      split
      · exact Nat.le_succ_of_le (ih _)
      · simp
    | succ n => exact Nat.le_succ_of_le (by simpa [Text.trimStartAfter] using ih n)

theorem length_trimStart_le (t : Text) : (Text.trimStart t).length ≤ t.length :=
  length_trimStartAfter_le 0 t

theorem length_splitWord_le (t : Text) : (splitWord t).2.length ≤ t.length := by
  simpa [splitWord] using (List.dropWhile_suffix isWordByte).length_le

/-- The type a text starts with, and the rest. -/
def parseStart (text : Text) : Except TypeFault (TypeExpr × Text) :=
  let t := text.trimStart
  let word := (splitWord t).1
  let rest := (splitWord t).2
  if word == [] then .error (.noWord t)
  else
    match scalarOf? word, compositeOf? word with
    | some s, _ => .ok (s, rest)
    | none, some k =>
      match h : rest.trimStart with
      | [] => .error (.noItem t word)
      | b :: inner =>
        if b != '['.toUInt8 then .error (.noItem t word)
        else
          match parseStart inner with
          | .error e => .error e
          | .ok (elem, rest) =>
            match rest.trimStart with
            | [] => .error (.unclosed t)
            | b :: rest =>
              if b != ']'.toUInt8 then .error (.unclosed t) else .ok (node k 0 none elem, rest)
    | none, none =>
      match refOf word with
      | .error e => .error e
      | .ok t => .ok (t, rest)
termination_by text.length
decreasing_by
  have h₁ := length_trimStart_le text
  have h₂ := length_splitWord_le text.trimStart
  have h₃ := length_trimStart_le (splitWord text.trimStart).2
  rw [h] at h₃
  simp only [List.length_cons] at h₃
  omega

/-- The type a text writes. -/
def parse (text : Text) : Except TypeFault TypeExpr := do
  let (t, rest) ← parseStart text.trim
  if rest.isBlank then .ok t else .error (.trailing text rest)

end TypeExpr

end WireModel
