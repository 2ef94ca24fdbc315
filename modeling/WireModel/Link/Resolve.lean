import WireModel.Spec.Validate
import WireModel.Link.Graph

/-!
# Linking

Binding the imports and references of a set of modules. Linking goes in steps, and the first step
that finds errors ends it with all errors of that step:

* every module is registered by its path and validated;
* every import is bound to the module at its path;
* imports must not go in circles;
* every reference is bound to a declaration with values, and every extended declaration to a
  virtual struct of its module;
* newtypes must not wrap each other in a circle.

Bindings are kept in the modules, and stay there when a later step fails. Two aliases for one path
share one module, so their references are bound to the same declarations.

The steps that look for a declaration by its name do not care how it is found; `resolve` scans the
declarations of the module.
-/

namespace WireModel

/-- Why linking ends without a graph. -/
inductive LinkFailure where
  /-- The errors of the step that failed. -/
  | errors (es : List CompileError)
  /-- A node that says it is a reference holds none, in a place validation does not look at. -/
  | unnamedReference
  deriving Inhabited

/-! ## Registering -/

/-- The modules by distinct path, and the errors found: a path that is given twice, and whatever is
wrong with a module. The same module may be given again. -/
def register (w : Workspace) : (known : List (Text × Nat)) → List Nat →
    List (Text × Nat) × List CompileError
  | known, [] => (known, [])
  | known, id :: ids =>
    match w[id]? with
    | none => register w known ids
    | some m =>
      match Text.lookup? m.path known with
      | some prev =>
        let (known, errs) := register w known ids
        if prev == id then (known, errs)
        else
          (known, { kind := some .duplicateDeclaration, name := m.path,
                    detail := "module path given twice" } :: errs)
      | none =>
        let (known, errs) := register w (known ++ [(m.path, id)]) ids
        (known, m.errors ++ errs)

/-! ## Binding imports -/

/-- The imports of a module with their bindings, and the errors found. An alias may be bound again
to the same path. -/
def bindImports (module : Text) (known : List (Text × Nat)) :
    (aliases : List (Text × Text)) → List Import → List Import × List CompileError
  | _, [] => ([], [])
  | aliases, i :: is =>
    let fail (e : CompileError) (aliases : List (Text × Text)) :=
      let (is, errs) := bindImports module known aliases is
      (i :: is, e :: errs)
    if i.ns == [] then
      fail { kind := some .invalidDeclaration, module, name := i.path,
             detail := "import without alias" } aliases
    else
      match (Text.lookup? i.ns aliases).filter (· != i.path) with
      | some path =>
        fail { kind := some .ambiguousAlias, module, name := i.ns,
               detail := "bound to " ++ path.quote ++ " and " ++ i.path.quote } aliases
      | none =>
        let aliases := (i.ns, i.path) :: aliases
        match Text.lookup? i.path known with
        | none => fail { kind := some .unresolvedImport, module, name := i.path } aliases
        | some dep =>
          let (is, errs) := bindImports module known aliases is
          ({ i with bound := some dep } :: is, errs)

/-- The graph of imports among modules. -/
def importGraph (w : Workspace) (ids : List Nat) : Digraph Nat :=
  ⟨ids, fun id => ((w[id]?).map fun m => m.imports.filterMap (·.bound)).getD []⟩

/-- The name of a module of a workspace. -/
def Workspace.nameOf (w : Workspace) (id : Nat) : Text := ((w[id]?).map (·.name)).getD []

/-- One error for every circle of imports. -/
def cycleErrors (w : Workspace) (ids : List Nat) : List CompileError :=
  let g := importGraph w ids
  (g.components.filter g.isCyclic).map fun c =>
    { kind := some .importCycle
      module := ((c.head?).map w.nameOf).getD []
      detail := Text.join " -> " ((g.cyclePath c).map w.nameOf) }

/-! ## Binding references -/

/-- The module a reference looks into: its own, or the one bound to its alias by the first import
of that alias. -/
def scopeOf (m : Module) (self : Nat) (r : Ref) : Option Nat :=
  if r.ns == [] then some self else (m.imports.find? (·.ns == r.ns)).bind (·.bound)

/-- The declaration a reference stands for, where `find` finds declarations by their names. -/
def findTargetBy (find : Module → Text → Option Nat) (w : Workspace) (m : Module) (self : Nat)
    (decl field : Text) (r : Ref) : Except CompileError DeclId :=
  let fail (kind : ErrorKind) (detail : Text) : Except CompileError DeclId :=
    .error { kind := some kind, module := m.name, decl, field, name := r.toText, detail }
  match scopeOf m self r with
  | none => fail .unresolvedReference ("no import named " ++ r.ns.quote)
  | some scope =>
    match (w[scope]?).bind fun s => (find s r.name).bind fun i => (s.decls[i]?).map ((i, ·)) with
    | none => fail .unresolvedReference []
    | some (i, target) =>
      if target.isInstantiable then .ok ⟨scope, i⟩
      else fail .invalidReference (target.kind.name ++ " declarations have no values")

/-- The declaration a reference stands for. -/
def findTarget : (w : Workspace) → (m : Module) → (self : Nat) → (decl field : Text) → (r : Ref) →
    Except CompileError DeclId :=
  findTargetBy Module.find?

/-- A type with its references bound, and the errors of those that cannot be. -/
def bindType (find : Ref → Except CompileError DeclId) : TypeExpr → TypeExpr × List CompileError
  | .missing => (.missing, [])
  | .node k w r elem =>
    let (elem, errs) := bindType find elem
    match k, r with
    | .ref, some ref =>
      match find ref with
      | .ok target => (.node k w (some { ref with target := some target }) elem, errs)
      | .error e => (.node k w r elem, e :: errs)
    | _, _ => (.node k w r elem, errs)

/-- The first name that stands in the list a second time. -/
def bindBase.firstRepeated : (seen : List Text) → List Text → Option Text
  | _, [] => none
  | seen, n :: ns => if seen.contains n then some n else firstRepeated (n :: seen) ns

/-- The binding of the declaration that a declaration extends, and the error if there is one. -/
def bindBaseBy (find : Module → Text → Option Nat) (w : Workspace) (m : Module) (self : Nat)
    (d : Decl) : Option DeclId × List CompileError :=
  if d.extend == [] then (d.base, [])
  else
    let fail (kind : ErrorKind) (name detail : Text) : List CompileError :=
      [{ kind := some kind, module := m.name, decl := d.name, name, detail }]
    match (find m d.extend).bind fun i => (m.decls[i]?).map ((i, ·)) with
    | none => (d.base, fail .unresolvedReference d.extend "extended declaration not found")
    | some (i, b) =>
      if b.kind != .virtual then
        (d.base, fail .invalidReference d.extend
          ("only virtual structs can be extended, got " ++ b.kind.name))
      else
        let base : DeclId := ⟨self, i⟩
        let names := (w.allFields { d with base := some base }).map (·.name)
        match bindBase.firstRepeated [] names with
        | some name =>
          (some base, fail .duplicateDeclaration name ("field shadows a field of " ++ b.name))
        | none => (some base, [])

/-- The binding of the declaration that a declaration extends, and the error if there is one. -/
def bindBase : (w : Workspace) → (m : Module) → (self : Nat) → (d : Decl) →
    Option DeclId × List CompileError :=
  bindBaseBy Module.find?

/-- A declaration with its references bound, and the errors found. -/
def bindDeclBy (find : Module → Text → Option Nat) (w : Workspace) (m : Module) (self : Nat)
    (d : Decl) : Decl × List CompileError :=
  let (base, baseErrs) := bindBaseBy find w m self d
  let bind (field : Text) (t : TypeExpr) : TypeExpr × List CompileError :=
    bindType (findTargetBy find w m self d.name field) t
  let errs := d.members.flatMap fun x => (bind x.1 x.2).2
  let body : Body :=
    match d.body with
    | .struct fs => .struct (fs.map fun f => { f with type := (bind f.name f.type).1 })
    | .virtual fs => .virtual (fs.map fun f => { f with type := (bind f.name f.type).1 })
    | .union vs tag payload =>
      .union (vs.map fun v => { v with payload := (bind v.name v.payload).1 }) tag payload
    | .newtype t => .newtype (bind [] t).1
    | b => b
  ({ d with base, body }, baseErrs ++ errs)

/-- A declaration with its references bound, and the errors found. -/
def bindDecl : (w : Workspace) → (m : Module) → (self : Nat) → (d : Decl) →
    Decl × List CompileError :=
  bindDeclBy Module.find?

/-- Whether a module holds a node that says it is a reference and holds none. -/
def Module.hasUnnamedRef (m : Module) : Bool :=
  m.decls.any fun d => d.members.any fun x => x.2.refs.contains none

/-! ## Newtypes -/

/-- The error of newtypes of a module that wrap each other in a circle. -/
def recursionErrors (w : Workspace) (m : Nat) : List CompileError :=
  let g := w.wrapGraph m
  let nameOf (d : DeclId) : Text := ((w.decl? d).map (·.name)).getD []
  ((g.components.find? g.isCyclic).map fun c =>
    { kind := some .invalidRecursion
      module := w.nameOf m
      decl := ((c.head?).map nameOf).getD []
      detail := Text.join " -> " ((g.cyclePath c).map nameOf) }).toList

/-! ## All steps -/

/-- The workspace with one module replaced. -/
def Workspace.update (w : Workspace) (id : Nat) (f : Module → Module) : Workspace := w.modify id f

/-- The modules a module imports, one for each path, in the order of their paths. -/
def dependencies (w : Workspace) (id : Nat) : List Nat :=
  let pathOf (id : Nat) : Text := ((w[id]?).map (·.path)).getD []
  let bound := ((w[id]?).map fun m => m.imports.filterMap (·.bound)).getD []
  bound.eraseDups.mergeSort fun a b => Text.le (pathOf a) (pathOf b)

/-- The workspace with the imports of some modules bound, and the errors found. -/
def bindAllImports (w : Workspace) (known : List (Text × Nat)) (ids : List Nat) :
    Workspace × List CompileError :=
  ids.foldl (fun (w, errs) id =>
    match w[id]? with
    | none => (w, errs)
    | some m =>
      let (imports, es) := bindImports m.name known [] m.imports
      (w.update id fun m => { m with imports }, errs ++ es)) (w, [])

/-- The workspace with the references of some modules bound, and the errors found. -/
def bindAllRefsBy (find : Module → Text → Option Nat) (w : Workspace) (ids : List Nat) :
    Workspace × List CompileError :=
  let bound := ids.filterMap fun id =>
    (w[id]?).map fun m => (id, m.decls.map (bindDeclBy find w m id))
  (bound.foldl (fun w (id, ds) => w.update id fun m => { m with decls := ds.map (·.1) }) w,
    bound.flatMap fun (_, ds) => ds.flatMap (·.2))

/-- The workspace with the references of some modules bound, and the errors found. -/
def bindAllRefs : (w : Workspace) → (ids : List Nat) → Workspace × List CompileError :=
  bindAllRefsBy Module.find?

/-- Links some modules of a workspace, with a way to bind their references. The workspace that comes
back holds the bindings made, also when linking fails. -/
def resolveWith (bindAllRefs : Workspace → List Nat → Workspace × List CompileError)
    (w : Workspace) (ids : List Nat) : Workspace × Except LinkFailure ModuleGraph :=
  let (known, errs) := register w [] ids
  if !errs.isEmpty then (w, .error (.errors errs))
  else
    let ids := (Text.sortByKey known).map (·.2)
    let (w, errs) := bindAllImports w known ids
    if !errs.isEmpty then (w, .error (.errors errs))
    else
      let errs := cycleErrors w ids
      if !errs.isEmpty then (w, .error (.errors errs))
      else if ids.any fun id => (w[id]?).any (·.hasUnnamedRef) then (w, .error .unnamedReference)
      else
        let (w, errs) := bindAllRefs w ids
        if !errs.isEmpty then (w, .error (.errors errs))
        else
          let errs := ids.flatMap (recursionErrors w)
          if !errs.isEmpty then (w, .error (.errors errs))
          else
            let order := schedule (dependencies w) [] ids
            let modules := order.map fun id => analyze w id (dependencies w id)
            (w, .ok { workspace := w, modules })

/-- Links some modules of a workspace. The workspace that comes back holds the bindings made, also
when linking fails. -/
def resolve (w : Workspace) (ids : List Nat) : Workspace × Except LinkFailure ModuleGraph :=
  resolveWith bindAllRefs w ids

end WireModel
