import WireModel.Spec.Module
import WireModel.Spec.Error
import WireModel.Number.Literal

/-!
# Validation

The shape a module must have before its references are looked at: names are identifiers and
declared once, types are well formed, unions have variants and two different keys, constants fit
their type. Every violation is reported, in declaration order. Binding the references is the
linker's job.

A name that is not an identifier, or that is taken, is reported and what it names is not looked
into.
-/

namespace WireModel

/-- Whether a text is an identifier: letters, digits and underscores, not starting with a digit. -/
def isIdent : Text → Bool
  | [] => false
  | b :: bs =>
    (Text.isLetter b || b == '_'.toUInt8) &&
      bs.all fun b => Text.isLetter b || Text.isDigit b || b == '_'.toUInt8

/-! ## Types -/

/-- What can be wrong with a type. -/
inductive TypeDefect where
  | noType
  | unknownKind (code : Nat)
  | badWidth (width : Int)
  | nestedOptional (type : TypeExpr)
  | noItem (composite : Kind)
  | unnamedRef
  deriving DecidableEq, Inhabited

namespace TypeDefect

/-- The kind of error a defect is reported as. -/
def kind : TypeDefect → ErrorKind
  | nestedOptional _ => .invalidOptionalNesting
  | _ => .invalidDeclaration

/-- The wording of a defect. -/
def detail : TypeDefect → Text
  | noType => "missing type"
  | unknownKind n => "unknown type kind " ++ Text.ofNat n
  | badWidth w => "unsupported integer width " ++ Text.ofInt w
  | nestedOptional t => t.toText
  | noItem k => k.name ++ " without item type"
  | unnamedRef => "reference without name"

end TypeDefect

/-- Whether integers of a width are supported. -/
def isIntWidth (w : Int) : Bool := w == 8 || w == 16 || w == 32 || w == 64

namespace TypeExpr

/-- The first defect of a type, outermost node first. What follows a scalar or a reference is not
looked at. -/
def defect? : TypeExpr → Option TypeDefect
  | missing => some .noType
  | node k width ref elem =>
    if !k.isValid then some (.unknownKind k.code)
    else
      match k with
      | .int => if isIntWidth width then none else some (.badWidth width)
      | .optional =>
        if elem.isOptional then some (.nestedOptional (node k width ref elem))
        else if elem == missing then some (.noItem k)
        else elem.defect?
      | .list | .map => if elem == missing then some (.noItem k) else elem.defect?
      | .ref =>
        match ref with
        | none => some .unnamedRef
        | some r => if r.name == [] then some .unnamedRef else none
      | _ => none

end TypeExpr

/-! ## Names -/

/-- The errors of a list of named things: `badName` for a name that is no identifier, `taken` for
one that was seen before, and what `inner` finds for the others. -/
def checkNames {α : Type} (name : α → Text) (badName taken : α → CompileError)
    (inner : α → List CompileError) : (seen : List Text) → List α → List CompileError
  | _, [] => []
  | seen, x :: xs =>
    if !isIdent (name x) then badName x :: checkNames name badName taken inner seen xs
    else if seen.contains (name x) then taken x :: checkNames name badName taken inner seen xs
    else inner x ++ checkNames name badName taken inner (name x :: seen) xs

/-! ## Declarations -/

/-- Whether a constant's value fits an integer type of a supported width. -/
def fitsWidth (n width : Int) : Bool :=
  if width == 8 then fitsSigned 8 n
  else if width == 16 then fitsSigned 16 n
  else if width == 32 then fitsSigned 32 n
  else true

namespace Decl

variable (module : Text) (d : Decl)

/-- An error about a member of the declaration. -/
def invalid (field detail : Text) : CompileError :=
  { kind := some .invalidDeclaration, module, decl := d.name, field, detail }

/-- An error about a member name that is taken. -/
def duplicate (name detail : Text) : CompileError :=
  { kind := some .duplicateDeclaration, module, decl := d.name, name, detail }

/-- The error of a member's type, if it has a defect. -/
def typeErrors (field : Text) (t : TypeExpr) : List CompileError :=
  match t.defect? with
  | none => []
  | some defect =>
    [{ kind := some defect.kind, module, decl := d.name, field, detail := defect.detail }]

/-- The errors of a list of fields. -/
def fieldErrors (fs : List Field) : List CompileError :=
  checkNames Field.name
    (fun f => d.invalid module f.name "invalid field name")
    (fun f => d.duplicate module f.name "duplicate field")
    (fun f => d.typeErrors module f.name f.type) [] fs

/-- The errors of a list of variants. -/
def variantErrors (vs : List Variant) : List CompileError :=
  checkNames Variant.name
    (fun v => d.invalid module v.name "invalid variant name")
    (fun v => d.duplicate module v.name "duplicate variant")
    (fun v => if v.isVoid then [] else d.typeErrors module v.name v.payload) [] vs

/-- The error of a constant's value, if it does not fit its type. -/
def valueErrors (isInt : Bool) (width : Int) (type : TypeExpr) (c : Const) : List CompileError :=
  match c.value with
  | .text _ =>
    if isInt then [d.invalid module c.name ("string value for " ++ type.toText ++ " const")] else []
  | .int .int64 n =>
    if !isInt then [d.invalid module c.name ("integer value for " ++ type.toText ++ " const")]
    else if fitsWidth n width then []
    else [d.invalid module c.name ("value " ++ Text.ofInt n ++ " overflows " ++ type.toText)]
  | .null => [d.invalid module c.name "unsupported const value <nil>"]
  | v => [d.invalid module c.name ("unsupported const value " ++ v.kindName)]

/-- The errors of a group of constants. -/
def constErrors (type : TypeExpr) (cs : List Const) : List CompileError :=
  let check (isInt : Bool) (width : Int) : List CompileError :=
    match d.typeErrors module [] type with
    | [] =>
      checkNames Const.name
        (fun c => d.invalid module c.name "invalid const name")
        (fun c => d.duplicate module c.name "duplicate const")
        (fun c => d.valueErrors module isInt width type c) [] cs
    | errs => errs
  match type with
  | .node .int width _ _ => check true width
  | .node .string width _ _ => check false width
  | t => [d.invalid module [] ("const type must be an integer or string, got " ++ t.toText)]

/-- The errors of a declaration. -/
def errors : List CompileError :=
  (if d.extend != [] && d.kind != .struct then
    [d.invalid module [] "only structs can extend a virtual struct"] else []) ++
  match d.body with
  | .struct fs | .virtual fs => d.fieldErrors module fs
  | .union vs _ _ =>
    (if vs.isEmpty then [d.invalid module [] "enum must declare at least one variant"] else []) ++
    (if d.tagKey == d.payloadKey then
      [d.invalid module [] ("tag and payload keys must differ, both are " ++ d.tagKey.quote)]
      else []) ++
    d.variantErrors module vs
  | .newtype t => d.typeErrors module [] t
  | .consts t cs => d.constErrors module t cs
  | .unknown n => [d.invalid module [] ("unknown declaration kind " ++ Text.ofNat n)]

end Decl

/-- The errors of a module, in declaration order. -/
def Module.errors (m : Module) : List CompileError :=
  checkNames Decl.name
    (fun d => d.invalid m.name [] ("invalid declaration name " ++ d.name.quote))
    (fun d => { kind := some .duplicateDeclaration, module := m.name, name := d.name })
    (fun d => d.errors m.name) [] m.decls

end WireModel
