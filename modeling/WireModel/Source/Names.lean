import WireModel.Fault
import WireModel.Naming.Identifier
import WireModel.Spec.Module

/-!
# Names in generated source

What the parts of a declaration are called in the generated package, and the check that no two of
them are called the same.
-/

namespace WireModel.Source

/-- The exported identifier of a name. -/
def exported (name : Text) : Text := Naming.pascal Naming.commonAcronyms name

/-- The type of a declaration. -/
def typeName (d : Decl) : Text := exported d.name

/-- The deserializer of a declaration. -/
def deserializerName (d : Decl) : Text := "Deserialize" ++ typeName d

/-- The type of a variant of a union. -/
def variantName (d : Decl) (v : Variant) : Text := typeName d ++ exported v.name

/-- The method that only the variants of a union have. -/
def markerName (d : Decl) : Text := "is" ++ typeName d

/-- The field of a struct type. -/
def fieldName (f : Field) : Text := exported f.name

/-- The accessor of a field. -/
def getterName (f : Field) : Text := "Get" ++ fieldName f

/-- A constant of a group. -/
def constName (d : Decl) (c : Const) : Text := typeName d ++ exported c.name

/-- The table of the constants of a group. -/
def tableName (d : Decl) : Text := Naming.plural (typeName d)

/-- A name together with what it stands for. -/
abbrev OwnedName := Text × Text

/-- The names a declaration takes in its package. -/
def packageNames (d : Decl) : List OwnedName :=
  [(typeName d, d.name)] ++
  (if d.isInstantiable then [(deserializerName d, d.name)] else []) ++
  match d.body with
  | .union vs _ _ => vs.map fun v => (variantName d v, d.name ++ "." ++ v.name)
  | .consts _ cs =>
    (cs.map fun c => (constName d c, d.name ++ "." ++ c.name)) ++ [(tableName d, d.name)]
  | _ => []

/-- The names the members of a declaration take in its type. -/
def memberNames (w : Workspace) (d : Decl) : List OwnedName :=
  let accessors (fs : List Field) : List OwnedName :=
    fs.map fun f => (getterName f, "accessor of field " ++ f.name)
  match d.body with
  | .virtual fs => accessors fs
  | .struct _ =>
    [(Text.ofString "Serialize", Text.ofString "method Serialize")] ++
      ((w.allFields d).map fun f => (fieldName f, "field " ++ f.name)) ++
      ((d.base.bind w.decl?).map fun b => accessors (w.allFields b)).getD []
  | _ => []

/-- The first name that is taken twice, with both owners, or all names. -/
def addNames : (known : List OwnedName) → List OwnedName →
    Except (Text × Text × Text) (List OwnedName)
  | known, [] => .ok known
  | known, (id, owner) :: cs =>
    match Text.lookup? id known with
    | some prev => .error (prev, owner, id)
    | none => addNames (known ++ [(id, owner)]) cs

/-- A name that cannot be given. -/
def nameFault (module detail : Text) : Fault := .generation { backend := "go", module } detail

/-- Checks the names of declarations, one after the other, after those that are known. -/
def checkDecls (w : Workspace) (module : Text) :
    (known : List OwnedName) → List Decl → Except Fault Unit
  | _, [] => .ok ()
  | known, d :: ds =>
    match addNames known (packageNames d) with
    | .error (prev, owner, id) =>
      .error (nameFault module (prev ++ " and " ++ owner ++ " both declare Go identifier " ++ id))
    | .ok known =>
      match addNames [] (memberNames w d) with
      | .error (prev, owner, _) =>
        .error (nameFault module (d.name ++ ": " ++ owner ++ " conflicts with " ++ prev))
      | .ok _ => checkDecls w module known ds

/-- Checks the names of a module. -/
def checkNames (w : Workspace) (m : Module) : Except Fault Unit := checkDecls w m.name [] m.decls

/-- The names that are declared inside generated functions, which would hide packages. -/
def localNames (m : Module) : List Text :=
  (["v", "m", "x", "err", "out", "tag", "payload"] : List Text) ++ m.decls.flatMap fun d =>
    match d.body with
    | .struct _ | .newtype _ => [Naming.receiver (typeName d)]
    | .union vs _ _ => vs.map fun v => Naming.receiver (variantName d v)
    | _ => []

end WireModel.Source
