import WireModel.Source.Columns
import WireModel.Source.Import

/-!
# Layout of terms and statements

How types, expressions and the statements of a function are written: every block is indented by a
tab, and the values of a table stand in columns.
-/

namespace WireModel.Source

/-! ## Names, types and expressions -/

/-- What names are called in a file. -/
structure Scope where
  /-- The import path of the file's own package. -/
  own : Text
  imports : List ImportSpec

namespace Scope

variable (s : Scope)

/-- A name as it is written. -/
def nameText : Name → Text
  | .plain id => id
  | .qualified p id =>
    if p == s.own then id
    else
      match s.imports.find? (·.path == p) with
      | some i => i.word ++ "." ++ id
      | none => id

/-- A type as it is written. -/
def typeText : TypeTerm → Text
  | .name n => s.nameText n
  | .pointer t => "*" ++ typeText t
  | .slice t => "[]" ++ typeText t
  | .table t => "map[string]" ++ typeText t

mutual

/-- The lines of an expression. -/
def exprLines : Expr → Lines
  | .name n => [s.nameText n]
  | .text t => [t.quote]
  | .int n => [Text.ofInt n]
  | .select x m => (exprLines x).trail ("." ++ m)
  | .deref x => Lines.lead "*" (exprLines x)
  | .call f args =>
    Lines.glue ((exprLines f).trail "(") ((Lines.join ", " (listLines args)).trail ")")
  | .instantiate f t => [s.nameText f ++ "[" ++ s.typeText t ++ "]"]
  | .convert t x => Lines.lead (s.typeText t ++ "(") ((exprLines x).trail ")")
  | .lambda p t x =>
    [("func(" : Text) ++ p ++ " " ++ s.typeText t ++ ") any \x7b"] ++
      Lines.indent (Lines.lead "return " (exprLines x)) ++ [Text.ofString "\x7d"]
  | .record type none => [type ++ "\x7b\x7d"]
  | .record type (some (m, x)) =>
    Lines.lead (type ++ "\x7b" ++ m ++ ": ") ((exprLines x).trail "\x7d")
  | .table t es =>
    let head : Text := "map[string]" ++ s.typeText t ++ "\x7b"
    match rows es with
    | [] => [head ++ "\x7d"]
    | [r] => Lines.lead (head ++ r.key ++ ": ") (r.value.trail "\x7d")
    | rs => [head] ++ Lines.indent (alignRows rs) ++ [Text.ofString "\x7d"]

/-- The lines of expressions. -/
def listLines : List Expr → List Lines
  | [] => []
  | x :: xs => exprLines x :: listLines xs

/-- The rows of a table. -/
def rows : List (Text × Expr) → List Row
  | [] => []
  | (k, x) :: es => ⟨k.quote, exprLines x⟩ :: rows es

end

/-! ## Statements -/

/-- Expressions in a row. -/
def listText (xs : List Expr) : Lines := Lines.join ", " (s.listLines xs)

/-- A return. -/
def returnLines (xs : List Expr) : Lines := Lines.lead "return " (s.listText xs)

/-- An assignment. -/
def assignLines (op : Text) (targets : List Expr) (value : Expr) : Lines :=
  Lines.glue ((s.listText targets).trail (" " ++ op ++ " ")) (s.exprLines value)

/-- A check for an error with what comes before it. -/
def checkLines (before : Lines) (results : List Expr) : Lines :=
  (Lines.lead "if " (before.trail "err != nil \x7b")) ++ Lines.indent (s.returnLines results) ++
    [Text.ofString "\x7d"]

mutual

/-- The lines of a statement. -/
def stmtLines : Stmt → Lines
  | .define ts x => s.assignLines ":=" ts x
  | .declare id type => [("var " : Text) ++ id ++ " " ++ type]
  | .check rs => s.checkLines [[]] rs
  | .tryAssign define ts x rs =>
    s.checkLines ((s.assignLines (if define then ":=" else "=") ts x).trail "; ") rs
  | .return rs => s.returnLines rs
  | .switch subject cases other =>
    [("switch " : Text) ++ subject ++ " \x7b"] ++ caseLines cases ++ [Text.ofString "default:"] ++
      Lines.indent (blockLines other) ++ [Text.ofString "\x7d"]

/-- The lines of statements. -/
def blockLines : List Stmt → Lines
  | [] => []
  | x :: xs => stmtLines x ++ blockLines xs

/-- The lines of the cases of a choice. -/
def caseLines : List (Text × List Stmt) → Lines
  | [] => []
  | (t, ss) :: cs =>
    [("case " : Text) ++ t.quote ++ ":"] ++ Lines.indent (blockLines ss) ++ caseLines cs

end

end Scope

end WireModel.Source
