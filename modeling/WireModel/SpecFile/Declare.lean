import WireModel.Fault
import WireModel.SpecFile.Basic
import WireModel.Spec.Module

/-!
# Declarations of a spec file

Every model of a file becomes a declaration of its module. The fields a variant is given inline
become a struct of their own, which the payload of the variant refers to; it comes after the enum.

A model that cannot become a declaration is reported, and the others are still looked at. A null
entry that has to be looked into ends everything.
-/

namespace WireModel

/-- Why a model cannot become a declaration. -/
inductive ModelFault where
  | words (t : Text)
  /-- A null entry stands where an entry is needed. -/
  | nullEntry
  deriving DecidableEq, Inhabited

namespace ModelFault

/-- The fault with words put in front. -/
def within (lead : Text) : ModelFault → ModelFault
  | words t => words (lead ++ t)
  | nullEntry => nullEntry

end ModelFault

/-- What a model becomes, or why it cannot. -/
abbrev Declared := Except ModelFault

namespace FieldEntry

/-- The field an entry stands for. -/
def field (f : FieldEntry) : Declared Field :=
  match f.type with
  | .absent => .error (.words ("field " ++ f.name ++ ": missing type"))
  | t =>
    match t.type with
    | .error e => .error (.words ("field " ++ f.name ++ ": " ++ e))
    | .ok type =>
      .ok { name := f.name, type, required := f.required, doc := f.doc, attributes := f.attributes }

/-- The fields some entries stand for. -/
def fieldList : List (Option FieldEntry) → Declared (List Field)
  | [] => .ok []
  | none :: _ => .error .nullEntry
  | some f :: fs => do
    let x ← f.field
    let xs ← fieldList fs
    .ok (x :: xs)

end FieldEntry

/-- The name of the struct for the inline fields of a variant. -/
def payloadName (enum variant : Text) : Text := enum ++ variant ++ "Payload"

namespace VariantEntry

/-- The variant of an enum an entry stands for, and the struct of its inline fields. -/
def variant (enum : Text) (v : VariantEntry) : Declared (Variant × List Decl) :=
  let lead := "variant " ++ v.name ++ ": "
  match v.payload, v.fields with
  | .absent, none => .ok ({ name := v.name, payload := .missing, doc := v.doc }, [])
  | .absent, some fs =>
    match FieldEntry.fieldList fs with
    | .error e => .error (e.within lead)
    | .ok fields =>
      let name := payloadName enum v.name
      .ok ({ name := v.name, payload := .ref [] name, doc := v.doc },
        [{ name, body := .struct fields }])
  | t, none =>
    match t.type with
    | .error e => .error (.words (lead ++ e))
    | .ok payload => .ok ({ name := v.name, payload, doc := v.doc }, [])
  | _, some _ => .error (.words (lead ++ "payload_type and payload_fields are exclusive"))

/-- The variants some entries stand for, and the structs of their inline fields. -/
def variantList (enum : Text) : List (Option VariantEntry) → Declared (List Variant × List Decl)
  | [] => .ok ([], [])
  | none :: _ => .error .nullEntry
  | some v :: vs => do
    let (x, ds) ← v.variant enum
    let (xs, es) ← variantList enum vs
    .ok (x :: xs, ds ++ es)

end VariantEntry

namespace ConstEntry

/-- The constants some entries stand for. -/
def constList : List (Option ConstEntry) → Declared (List Const)
  | [] => .ok []
  | none :: _ => .error .nullEntry
  | some c :: cs => do
    let xs ← constList cs
    .ok ({ name := c.name, value := c.value, doc := c.doc } :: xs)

end ConstEntry

namespace ModelEntry

/-- What a model declares, with the structs that come with it. -/
def body (m : ModelEntry) : Declared (Body × List Decl) :=
  let t := m.type
  if t.name == "struct" then (fun fs => (.struct fs, [])) <$> FieldEntry.fieldList t.fields
  else if t.name == "virtual" then (fun fs => (.virtual fs, [])) <$> FieldEntry.fieldList t.fields
  else if t.name == "enum" then
    (fun (vs, ds) => (.union vs t.tagKey t.payloadKey, ds)) <$>
      VariantEntry.variantList m.name t.variants
  else if t.name == "new_type" then
    match t.inner with
    | .absent => .error (.words "new_type requires inner_type")
    | inner =>
      match inner.type with
      | .error e => .error (.words e)
      | .ok type => .ok (.newtype type, [])
  else if t.name == "const" then
    match WrittenType.parseText t.valueType with
    | .error e => .error (.words ("value_type: " ++ e))
    | .ok type => (fun cs => (.consts type cs, [])) <$> ConstEntry.constList t.values
  else if t.name == [] then .error (.words "missing model type")
  else .error (.words ("unknown model type " ++ t.name.quote))

/-- The declaration of a model, followed by the structs that come with it. Only structs extend
others. -/
def decls (m : ModelEntry) : Declared (List Decl) := do
  let (body, more) ← m.body
  let extend := if m.type.name == "struct" then m.type.extend else []
  .ok ({ name := m.name, body, doc := m.doc, attributes := m.attributes, extend } :: more)

end ModelEntry

namespace SpecFile

/-- The declarations of models, and what is wrong with those that have none. -/
def declareAll (module : Text) :
    List (Option ModelEntry) → Declared (List Decl × List CompileError)
  | [] => .ok ([], [])
  | none :: _ => .error .nullEntry
  | some m :: ms =>
    match m.decls with
    | .error .nullEntry => .error .nullEntry
    | .error (.words t) => do
      let (ds, es) ← declareAll module ms
      .ok (ds, { kind := some .invalidDeclaration, module, decl := m.name, detail := t } :: es)
    | .ok ds => do
      let (ds', es) ← declareAll module ms
      .ok (ds ++ ds', es)

/-- A module with the declarations of a file added. -/
def declare (f : SpecFile) (m : Module) : Except Fault Module :=
  match declareAll m.name f.models with
  | .error _ => .error .nullEntry
  | .ok (ds, []) => .ok (m.add ds)
  | .ok (_, es) => .error (.compileErrors es)

end SpecFile

end WireModel
