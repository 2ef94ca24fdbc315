import WireModel.Decode.Reader
import WireModel.Emit.Config
import WireModel.Emit.Generator
import WireModel.Source.FileLayout
import WireModel.Source.Names

/-!
# Building generated source

The file of a module declares, for every declaration, a type, a `Serialize` method and a
deserializer. The deserializer spells out the reader of the declaration, so running the generated
code and running the reader come to the same.

An optional is a pointer, unless its values have room for nothing already. A member on a cycle of
values is a pointer too. A newtype over a pointer or an interface is a struct around it, because
such types have no methods.
-/

namespace WireModel.Source

/-- The package of big integers. -/
def bigPackage : Text := "math/big"

/-- The package of decimals. -/
def decimalPackage : Text := "github.com/shopspring/decimal"

/-- What a file is built from. -/
structure Context where
  config : Config
  graph : ModuleGraph
  module : LinkedModule

namespace Context

variable (c : Context)

/-- The modules. -/
def workspace : Workspace := c.graph.workspace

/-- The module a file is built for. -/
def self : Module := (c.workspace[c.module.id]?).getD default

/-- A declaration. -/
def decl (id : DeclId) : Decl := (c.workspace.decl? id).getD default

/-- The import path of a module's package. -/
def importPath (m : Module) : Text := Path.join [c.config.package, m.name]

/-- The package name of a module: a setting of the module, or made from its name. -/
def packageName (m : Module) : Text :=
  let set := m.setting "go" "package"
  if set == [] then Naming.packageName m.name else set

/-- A name of the runtime package. -/
def runtime (id : Text) : Name := .qualified c.config.runtimePath id

/-- A name that belongs to a declaration. -/
def nameOf (id : DeclId) (name : Text) : Name :=
  if id.module == c.module.id then .plain name
  else .qualified (c.importPath ((c.workspace[id.module]?).getD default)) name

/-- A call of a function of the runtime package. -/
def runtimeCall (f : String) (args : List Expr) : Expr := .call (.name (c.runtime f)) args

/-! ## Types -/

/-- The integer type of a width. -/
def intType (width : Int) : TypeTerm := .builtin (IntKind.signed (Reader.intWidth width)).name

/-- The type of values of a type. -/
def typeTerm : TypeExpr → TypeTerm
  | .missing => .any
  | .node k width ref elem =>
    match k with
    | .bool => .builtin "bool"
    | .int => intType width
    | .float => .builtin "float64"
    | .string => .builtin "string"
    | .bigint => .pointer (.name (.qualified bigPackage "Int"))
    | .decimal => .name (.qualified decimalPackage "Decimal")
    | .bytes => .slice (.builtin "byte")
    | .list => .slice (typeTerm elem)
    | .map => .table (typeTerm elem)
    | .optional =>
      if Reader.isNilable c.workspace elem then typeTerm elem else .pointer (typeTerm elem)
    | .ref =>
      match ref.bind (·.target) with
      | some d => .name (c.nameOf d (typeName (c.decl d)))
      | none => .any
    | _ => .any

/-- Whether a member is held by a pointer because its type is recursive. -/
def isBoxed (d : DeclId) (member : Text) (t : TypeExpr) : Bool :=
  Reader.isBoxed c.workspace c.module d member t

/-- The type of a field or of the value of a newtype. -/
def memberType (d : DeclId) (member : Text) (t : TypeExpr) : TypeTerm :=
  if c.isBoxed d member t then .pointer (c.typeTerm t) else c.typeTerm t

/-! ## Reading and writing values -/

/-- A reader spelled out. -/
def readerExpr : Reader → Expr
  | .bool => .name (c.runtime "DecodeBool")
  | .int width => .instantiate (c.runtime "DecodeInt") (intType width)
  | .float => .name (c.runtime "DecodeFloat")
  | .text => .name (c.runtime "DecodeString")
  | .bigint => .name (c.runtime "DecodeBigInt")
  | .decimal => .name (c.runtime "DecodeDecimal")
  | .bytes => .name (c.runtime "DecodeBytes")
  | .json => .name (c.runtime "DecodeJSON")
  | .list r => c.runtimeCall "DecodeList" [readerExpr r]
  | .map r => c.runtimeCall "DecodeMap" [readerExpr r]
  | .optional r => c.runtimeCall "DecodeOptional" [readerExpr r]
  | .nullable r => c.runtimeCall "DecodeNullable" [readerExpr r]
  | .boxed r => c.runtimeCall "DecodePointer" [readerExpr r]
  | .decl d => .name (c.nameOf d (deserializerName (c.decl d)))

/-- The reader of a field or of the value of a newtype, spelled out. -/
def memberReader (d : DeclId) (member : Text) (t : TypeExpr) : Expr :=
  c.readerExpr (Reader.ofMember c.workspace c.module d member t)

mutual

/-- The expression that encodes a value of a type. -/
def encode (x : Expr) : TypeExpr → Expr
  | .missing => x
  | .node k width ref elem =>
    match k with
    | .bigint => c.runtimeCall "EncodeBigInt" [x]
    | .decimal => c.runtimeCall "EncodeDecimal" [x]
    | .bytes => c.runtimeCall "EncodeBytes" [x]
    | .list => c.runtimeCall "EncodeList" [x, encoder elem]
    | .map => c.runtimeCall "EncodeMap" [x, encoder elem]
    | .optional =>
      if Reader.isNilable c.workspace elem then encode x elem
      else c.runtimeCall "EncodeOptional" [x, encoder elem]
    | .ref =>
      if Reader.isNilable c.workspace (.node k width ref elem) then c.runtimeCall "EncodeValue" [x]
      else .call (.select x "Serialize") []
    | _ => x

/-- The function that encodes values of a type. -/
def encoder : TypeExpr → Expr
  | .missing => .name (c.runtime "EncodeJSON")
  | .node k width ref elem =>
    let t : TypeExpr := .node k width ref elem
    let wrap (body : Expr) : Expr := .lambda "x" (c.typeTerm t) body
    match k with
    | .bigint => .name (c.runtime "EncodeBigInt")
    | .decimal => .name (c.runtime "EncodeDecimal")
    | .bytes => .name (c.runtime "EncodeBytes")
    | .list => wrap (c.runtimeCall "EncodeList" [.var "x", encoder elem])
    | .map => wrap (c.runtimeCall "EncodeMap" [.var "x", encoder elem])
    | .optional =>
      if Reader.isNilable c.workspace elem then wrap (encode (.var "x") elem)
      else wrap (c.runtimeCall "EncodeOptional" [.var "x", encoder elem])
    | .ref =>
      match ref.bind (·.target) with
      | some d =>
        let name := c.nameOf d (typeName (c.decl d))
        if (c.decl d).kind == .union then .instantiate (c.runtime "EncodeValue") (.name name)
        else .select (.name name) "Serialize"
      | none => .name (c.runtime "EncodeJSON")
    | _ => .instantiate (c.runtime "EncodeScalar") (c.typeTerm t)

end

/-- The expression that encodes a field or the value of a newtype. -/
def memberEncode (d : DeclId) (member : Text) (t : TypeExpr) (x : Expr) : Expr :=
  if c.isBoxed d member t then c.runtimeCall "EncodePointer" [x] else c.encode x t

/-! ## Declarations -/

/-- The comment of a declaration, or a standing one. -/
def docOr (doc : Text) (standing : List Text) : Text := if doc == [] then standing.flatten else doc

/-- The type of errors. -/
def errorType : TypeTerm := .builtin "error"

/-- A method that encodes a value. -/
def serializeMethod (name : Option Text) (type : Text) (result : Expr) : Item :=
  .func { receiver := some { name, type }, name := "Serialize", results := [.any],
          body := [.return [result]] }

/-- The results of a deserializer that fails. -/
def failResults (zero : Expr) (decl : Text) : List Expr :=
  [zero, c.runtimeCall "WrapDecl" [.text decl, .err]]

/-- A deserializer. -/
def deserializer (d : Decl) (body : List Stmt) : Documented :=
  { doc := deserializerName d ++ " decodes a " ++ typeName d ++ " from its structured value."
    item := .func
      { name := deserializerName d, params := [(Text.ofString "v", .any)]
        results := [.builtin (typeName d), errorType], body } }

/-- The accessors of the fields a struct takes over, and the check that it has them all. -/
def accessors (id : DeclId) (d base : Decl) : List Documented :=
  let name := typeName d
  let r := Naming.receiver name
  let getter (f : Field) : Documented :=
    let value : Expr := .select (.var r) (fieldName f)
    let boxed := c.isBoxed id f.name f.effectiveType
    { doc := getterName f ++ " returns the " ++ f.name ++ " field of " ++ base.name ++ "."
      item := .func
        { receiver := some ⟨some r, name⟩, name := getterName f
          results := [c.typeTerm f.effectiveType]
          body := [.return [if boxed then .deref value else value]] } }
  (c.workspace.allFields base).map getter ++
    [{ item := .var "_" (some (.builtin (typeName base))) (.record name none) }]

/-- The declarations of a struct. -/
def structItems (id : DeclId) (d : Decl) : List Documented :=
  let name := typeName d
  let fields := c.workspace.allFields d
  let r := Naming.receiver name
  let zero : Expr := .record name none
  let fail := c.failResults zero d.name
  let readObject := c.runtimeCall "DecodeObject" [.var "v"]
  let entries := fields.map fun f =>
    (f.name, c.memberEncode id f.name f.effectiveType (.select (.var r) (fieldName f)))
  let readField (f : Field) : Stmt :=
    .tryAssign false [.select (.var "out") (fieldName f), .err]
      (c.runtimeCall (if f.required then "RequiredField" else "OptionalField")
        [.var "m", .text f.name, c.memberReader id f.name f.effectiveType]) fail
  let body : List Stmt :=
    if fields.isEmpty then
      [.tryAssign true [.var "_", .err] readObject fail, .return [zero, .nil]]
    else
      [.define [.var "m", .err] readObject, .check fail, .declare "out" name] ++
        fields.map readField ++ [.return [.var "out", .nil]]
  [{ doc := docOr d.doc [name, " is the ", d.name, " struct of module ", c.self.name, "."]
     item := .struct name (fields.map fun f =>
       { doc := f.doc, name := fieldName f, type := c.memberType id f.name f.effectiveType }) },
   { doc := "Serialize encodes " ++ name ++ " as a mapping with one key per field."
     item := serializeMethod (if fields.isEmpty then none else some r) name
       (.sortedTable .any entries) }] ++
  ((d.base.bind c.workspace.decl?).map (c.accessors id d)).getD [] ++
  [deserializer d body]

/-- The declaration of a virtual struct: what the structs that extend it have in common. -/
def virtualItems (d : Decl) : List Documented :=
  let name := typeName d
  [{ doc := docOr d.doc [name, " is implemented by the structs extending ", d.name, "."]
     item := .interface name (d.fields.map fun f =>
       .method (getterName f) (some (c.typeTerm f.effectiveType))) }]

/-- The declarations of a variant of a union. -/
def variantItems (d : Decl) (v : Variant) : List Documented :=
  let name := variantName d v
  let r := Naming.receiver name
  let tag : Text × Expr := (d.tagKey, .text v.name)
  [{ doc := docOr v.doc [name, " is the ", v.name, " variant of ", typeName d, "."]
     item := .struct name (if v.isVoid then []
       else [{ name := "Payload", type := c.typeTerm v.payload }]) },
   { item := .func { receiver := some ⟨none, name⟩, name := markerName d } },
   { doc := "Serialize encodes " ++ name ++ " with its discriminator."
     item :=
       if v.isVoid then serializeMethod none name (.sortedTable .any [tag])
       else serializeMethod (some r) name (.sortedTable .any
         [tag, (d.payloadKey, c.encode (.select (.var r) "Payload") v.payload)]) }]

/-- The statements that read a variant of a union. -/
def variantCase (d : Decl) (v : Variant) : Text × List Stmt :=
  let name := variantName d v
  (v.name,
    if v.isVoid then [.return [.record name none, .nil]]
    else
      [.define [.var "payload", .err]
        (c.runtimeCall (if v.payload.isOptional then "OptionalField" else "RequiredField")
          [.var "m", .text d.payloadKey, c.readerExpr (Reader.ofType c.workspace v.payload)]),
       .check (c.failResults .nil d.name),
       .return [.record name (some ("Payload", .var "payload")), .nil]])

/-- The declarations of a union. -/
def unionItems (d : Decl) : List Documented :=
  let name := typeName d
  let fail := c.failResults .nil d.name
  [{ doc := docOr d.doc [name, " is the ", d.name, " enum of module ", c.self.name,
       ". It is implemented by the ", name, " variant types."]
     item := .interface name [.embedded (c.runtime "Serializer"), .method (markerName d) none] }] ++
  d.variants.flatMap (c.variantItems d) ++
  [deserializer d
    [.define [.var "m", .err] (c.runtimeCall "DecodeObject" [.var "v"]), .check fail,
     .define [.var "tag", .err] (c.runtimeCall "RequiredField"
       [.var "m", .text d.tagKey, .name (c.runtime "DecodeString")]),
     .check fail,
     .switch "tag" (d.variants.map (c.variantCase d))
       [.return [.nil, c.runtimeCall "UnknownVariant" [.text d.name, .var "tag"]]]]]

/-- Whether a newtype is a struct around its value. -/
def isWrapper (id : DeclId) (t : TypeExpr) : Bool :=
  c.isBoxed id [] t || Reader.isNilable c.workspace t || t.isOptional

/-- The declarations of a newtype. -/
def newtypeItems (id : DeclId) (d : Decl) (t : TypeExpr) : List Documented :=
  let name := typeName d
  let r := Naming.receiver name
  let wrapper := c.isWrapper id t
  let value : Expr :=
    if wrapper then c.memberEncode id [] t (.select (.var r) "Value")
    else c.encode (.convert (c.typeTerm t) (.var r)) t
  let wrap : Expr :=
    if wrapper then .record name (some ("Value", .var "x"))
    else .convert (.builtin name) (.var "x")
  [{ doc := docOr d.doc [name, " is the ", d.name, " newtype of module ", c.self.name, "."]
     item :=
       if wrapper then .struct name [{ name := "Value", type := c.memberType id [] t }]
       else .defined name (c.typeTerm t) },
   { doc := "Serialize encodes " ++ name ++ " as its wrapped value."
     item := serializeMethod (some r) name value },
   deserializer d
     [.define [.var "x", .err] (.call (c.memberReader id [] t) [.var "v"]),
      .return [wrap, c.runtimeCall "WrapDecl" [.text d.name, .err]]]]

/-- The literal of a constant. -/
def constExpr (v : Value) : Expr :=
  match v with
  | .int _ n => .int n
  | .text t => .text t
  | _ => .nil

/-- The declarations of a group of constants. -/
def constItems (d : Decl) (t : TypeExpr) (cs : List Const) : List Documented :=
  let name := typeName d
  let head : Documented :=
    { doc := docOr d.doc [name, " is the ", d.name, " const group of module ", c.self.name, "."]
      item := .defined name (c.typeTerm t) }
  if cs.isEmpty then [head]
  else
    [head,
     { item := .consts (cs.map fun k =>
         { doc := k.doc, name := constName d k, type := name, value := constExpr k.value }) },
     { doc := tableName d ++ " holds the values of " ++ name ++ " keyed by name."
       item := .var (tableName d) none
         (.sortedTable (.builtin name) (cs.map fun k => (k.name, .var (constName d k)))) }]

/-- The declarations of a declaration. -/
def items (id : DeclId) : List Documented :=
  let d := c.decl id
  match d.body with
  | .struct _ => c.structItems id d
  | .virtual _ => c.virtualItems d
  | .union _ _ _ => c.unionItems d
  | .newtype t => c.newtypeItems id d t
  | .consts t cs => c.constItems d t cs
  | .unknown _ => []

/-! ## Files -/

/-- What the imported packages like to be called. -/
def hints : List Hint :=
  let hidden := localNames c.self
  [{ path := bigPackage, name := "big" }, { path := c.config.runtimePath, name := "specgen" },
    { path := decimalPackage, name := "decimal" }] ++
  c.module.deps.filterMap fun dep => (c.workspace[dep]?).map fun m =>
    let name := packageName m
    if hidden.contains name then { path := c.importPath m, name := name ++ "pkg", aliased := true }
    else { path := c.importPath m, name }

/-- The file of a module. -/
def file : File :=
  { header := c.config.headerComment
    doc := c.self.doc
    package := packageName c.self
    path := c.importPath c.self
    items := c.module.order.flatMap c.items }

end Context

/-- The backend that writes source. -/
def backend (cfg : Config) : Backend :=
  { name := "go"
    artifacts := fun g m =>
      let c : Context := ⟨cfg, g, m⟩
      if cfg.package == [] then
        .error (.setting "Package" "the go backend requires a package import path")
      else do
        checkNames c.workspace c.self
        let content : Except Fault Text := match c.file.text? c.hints with
          | some t => .ok t
          | none => .error .unworded
        .ok [{ dir := c.self.name, name := Context.packageName c.self ++ ".go", content }] }

end WireModel.Source
