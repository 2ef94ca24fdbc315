import WireModel.Source.BuildNote
import WireModel.Source.Fragment
import WireModel.Source.Layout

/-!
# Layout of files

How the declarations of a file are written: a declaration with a comment is set off by an empty line,
and so is a declaration of another kind than the one before. The fields of a struct and the entries of
a group of constants stand in columns.

Comments are first written in front of what they document, and the whole is laid out from there: a
comment that ends early leaves source behind, which is laid out like any other. A file is laid out
only if all its names are identifiers and all its comments hold comments and simple source.
-/

namespace WireModel.Source

/-- What stands before something with a comment, as it is first written. -/
def docGap (doc : Text) : Text :=
  Text.ofString "\n" ++ (if doc.isEmpty then [] else Comment.write doc ++ Text.ofString "\n")

/-! ## Bodies -/

/-- A line of a body: what is first written before it, and its cells. -/
structure BodyLine where
  gap : Text
  cells : List Text

/-- Cells with a comment behind them, in a column after the first few. -/
def withRemark (columns : Nat) (remark : Text) (cells : List Text) : List Text :=
  if remark.isEmpty then cells
  else cells ++ List.replicate (columns - cells.length) [] ++ [remark.dropWhile (· == ' '.toUInt8)]

/-- The rows of cells of a body, and the comment behind what stands before. -/
def bodyRows? (columns : Nat) : (isFirst : Bool) → List BodyLine → Option (Text × List (List Text))
  | _, [] => some ([], [])
  | isFirst, l :: ls => do
    let g ← Gap.ofText? l.gap
    let (remark, rows) ← bodyRows? columns false ls
    let cells := withRemark columns remark l.cells
    let breaks := if isFirst then 1 else max (min g.breaks 2) 1
    match g.lines { depth := 1, breaks } with
    | [] => pure ([], cells :: rows)
    | before :: lines =>
      let own := match cells with
        | [] => [lines.getLastD []]
        | c :: cs => (lines.getLastD [] ++ c) :: cs
      pure (before, (lines.dropLast.map fun t => [t]) ++ own :: rows)

/-- The lines of a body. -/
def bodyLines? (columns : Nat) (ls : List BodyLine) : Option Lines :=
  (bodyRows? columns true ls).map fun (_, rows) => alignColumns rows

/-- What a comment holds and what it belongs to, each with the text before it. -/
def withDoc? {α : Type} (read? : Text → Option (α × Text)) (doc : Text) (x : α) :
    Option (List (Text × α)) :=
  let t := docGap doc
  (Fragment.split? read? (t.length + 1) t).map fun (xs, last) => xs ++ [(last, x)]

/-- Whether each of some constants has a cell for its type: all of a run of constants with values, if
one of the run has a type. -/
def typeCells (bs : List Fragment.Binding) : List Bool :=
  (bs.splitBy fun a b => a.values.isSome == b.values.isSome).flatMap fun run =>
    if run.any (·.values.isSome) then run.map fun _ => run.any (·.type.isSome)
    else run.map (·.type.isSome)

/-- The cells of a constant. -/
def constCells (hasType : Bool) (b : Fragment.Binding) : List Text :=
  b.names :: ((if hasType then [b.type.getD []] else []) ++
    (b.values.map fun v => Text.ofString "= " ++ v).toList)

/-- Whether constants have the values they need: the first one and any with a type. -/
def constsOk (bs : List Fragment.Binding) : Bool :=
  bs.head?.all (·.values.isSome) && bs.all fun b => b.values.isSome || b.type.isNone

/-! ## Declarations -/

namespace Scope

variable (s : Scope)

/-- The name of a member of an interface with its result. -/
def memberText : Member → Text
  | .embedded n => s.nameText n
  | .method name result =>
    name ++ "()" ++ ((result.map fun t => ((" " : Text) ++ s.typeText t)).getD [])

/-- The head of a function. -/
def funcHead (f : FuncDecl) : Text :=
  let receiver : Text := match f.receiver with
    | none => []
    | some r =>
      "(" ++ ((r.name.map fun n => n ++ Text.ofString " ").getD []) ++ r.type ++ ") "
  let params : Text := Text.join ", " (f.params.map fun p => p.1 ++ " " ++ s.typeText p.2)
  let results : Text := match f.results with
    | [] => []
    | [t] => " " ++ s.typeText t
    | ts => " (" ++ Text.join ", " (ts.map s.typeText) ++ ")"
  "func " ++ receiver ++ f.name ++ "(" ++ params ++ ")" ++ results

/-- A head, and lines between braces. -/
def braced (head : Text) (body : Lines) : Lines :=
  [head ++ " \x7b"] ++ Lines.indent body ++ [Text.ofString "\x7d"]

/-- The lines of fields. -/
def fieldLines? (fs : List FieldDecl) : Option Lines := do
  let ls ← fs.mapM fun f => withDoc? Fragment.field? f.doc [f.name, s.typeText f.type]
  bodyLines? 2 (ls.flatten.map fun (gap, cells) => ⟨gap, cells⟩)

/-- The lines of constants. -/
def constLines? (cs : List ConstDecl) : Option Lines := do
  let ls ← cs.mapM fun c =>
    withDoc? Fragment.binding? c.doc
      ⟨c.name, some c.type, some (Text.join [] (s.exprLines c.value))⟩
  let ls := ls.flatten
  let bindings := ls.map (·.2)
  if !constsOk bindings then none
  bodyLines? 3 ((ls.zip (typeCells bindings)).map fun ((gap, b), hasType) =>
    ⟨gap, constCells hasType b⟩)

/-- The lines of a declaration, if its comments can be laid out. -/
def itemLines? : Item → Option Lines
  | .struct name [] => some [("type " : Text) ++ name ++ " struct\x7b\x7d"]
  | .struct name fs =>
    (s.fieldLines? fs).map (braced (("type " : Text) ++ name ++ " struct"))
  | .interface name [] => some [("type " : Text) ++ name ++ " interface\x7b\x7d"]
  | .interface name ms =>
    some (braced (("type " : Text) ++ name ++ " interface") (ms.map s.memberText))
  | .defined name t => some [("type " : Text) ++ name ++ " " ++ s.typeText t]
  | .func f =>
    some (if f.body.isEmpty then [s.funcHead f ++ " \x7b\x7d"]
      else braced (s.funcHead f) (s.blockLines f.body))
  | .consts cs =>
    (s.constLines? cs).map fun ls =>
      [Text.ofString "const ("] ++ Lines.indent ls ++ [Text.ofString ")"]
  | .var name t x =>
    some (Lines.lead (("var " : Text) ++ name ++
      ((t.map fun t => ((" " : Text) ++ s.typeText t)).getD []) ++ " = ") (s.exprLines x))

end Scope

/-! ## Files -/

/-- A declaration of a file: what is first written before it, its kind and its lines. -/
structure Part where
  gap : Text
  kind : ItemKind
  lines : Lines

/-- A declaration with what its comment holds. -/
def Scope.parts? (s : Scope) (d : Documented) : Option (List Part) := do
  let ls ← s.itemLines? d.item
  let read? (t : Text) := (Fragment.declaration? t).map fun ((k, x), rest) => ((k, [x]), rest)
  let xs ← withDoc? read? d.doc (d.item.kind, ls)
  pure (xs.map fun (gap, kind, lines) => ⟨gap, kind, lines⟩)

/-- The lines of declarations after one of a kind. The first goes on with the line before. -/
def partLines? : (prev : ItemKind) → List Part → Option Lines
  | _, [] => some []
  | prev, p :: ps => do
    let g ← Gap.ofText? p.gap
    let rest ← partLines? p.kind ps
    let breaks := max (min g.breaks 2) (if p.kind == prev then 1 else 2)
    pure (Lines.glue (g.lines { breaks }) (p.lines.glue rest))

/-- The lines of the clause that names the package, and what is written behind the name. -/
def packageClause? (name : Text) : Option (Lines × Text) := do
  let (g, rest) ← Gap.read? name
  let (id, rest) ← Fragment.ident? rest
  let rest := (Fragment.mark? ";" rest).getD rest
  let before : Lines := if g.comments.isEmpty then [Text.ofString " "] else g.lines {}
  pure (Lines.glue [Text.ofString "package"] (before.trail id), rest)

namespace File

/-- Whether all names a file declares and imports are identifiers. -/
def namesOk (f : File) (imports : List ImportSpec) : Bool :=
  imports.all (isIdentifier ·.word) && f.items.all fun d => d.item.identifiers.all isIdentifier

/-- The lines behind the name of the package, of which the first goes on with its line. -/
def restLines? (after : Text) (imports : List ImportSpec) (parts : List Part) : Option Lines :=
  match importLines imports, parts with
  | [], [] => do
    let g ← Gap.ofText? (after ++ "\n\n")
    pure (g.lines { behind := .nothing })
  | [], p :: ps => do
    let t := after ++ "\n\n" ++ p.gap
    let read? (t : Text) := (Fragment.declaration? t).map fun ((k, x), rest) => ((k, [x]), rest)
    let (xs, last) ← Fragment.split? read? (t.length + 1) t
    partLines? .package
      (xs.map (fun (gap, kind, lines) => ⟨gap, kind, lines⟩) ++ { p with gap := last } :: ps)
  | block, parts => do
    let g ← Gap.ofText? (after ++ "\n\n")
    let body ← partLines? .imports parts
    pure (Lines.glue (g.lines { breaks := 2, behind := .importWord }) (Lines.glue block body))

/-- The text of a file, if it is valid source. -/
def text? (hints : List Hint) (f : File) : Option Text := do
  let imports := f.imports hints
  if !f.namesOk imports then none
  let start ← Gap.ofText? (Comment.write f.header ++ "\n" ++ docGap f.doc)
  let (clause, after) ← packageClause? f.package
  let parts ← f.items.mapM (Scope.parts? ⟨f.path, imports⟩)
  let rest ← restLines? after imports parts.flatten
  let lines := Lines.glue (start.lines { isStart := true }) (clause.glue rest)
  pure ((BuildNote.arrange lines).flatMap (· ++ "\n"))

end File

end WireModel.Source
