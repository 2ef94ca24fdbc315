import WireModel.Spec.Decl

/-!
# Modules and workspaces

A module is a named unit that owns an ordered list of declarations and imports other modules by
their paths, each under an alias. A workspace is the list of modules a program works on. Modules
and declarations are told apart by their places in it, never by their names, so two modules may
well share a name or even a path; whether they may be compiled together is the linker's question.

The declarations of a module can be looked up by name. The first declaration of a name wins. The
look-up keeps an index, which is built on first use and extended as declarations are added;
`find?` is the plain scan it stands for.
-/

namespace WireModel

/-- An import of the module at a path. -/
structure Import where
  /-- The alias that references use. -/
  ns : Text
  path : Text
  /-- The number of the imported module, once the import is bound. -/
  bound : Option Nat := none
  deriving DecidableEq, Inhabited

/-- A module. -/
structure Module where
  /-- The slash separated name. -/
  name : Text
  /-- What imports refer to. -/
  path : Text
  doc : Text := []
  imports : List Import := []
  decls : List Decl := []
  /-- Settings for the backends: for each backend, keys and values. -/
  settings : List (Text × List (Text × Text)) := []
  /-- The position of the first declaration of every name, once a look-up was made. -/
  index : Option (List (Text × Nat)) := none
  deriving Inhabited

namespace Module

/-- The position of the first declaration with a name. -/
def find? (m : Module) (name : Text) : Option Nat := m.decls.findIdx? (·.name == name)

/-- An index extended by declarations that start at a position; a name that is already in it keeps
its place. -/
def extendIndex (index : List (Text × Nat)) (pos : Nat) : List Decl → List (Text × Nat)
  | [] => index
  | d :: ds =>
    let index := if index.any (·.1 == d.name) then index else index ++ [(d.name, pos)]
    extendIndex index (pos + 1) ds

/-- The declaration with a name, found by the index, which is built if there is none yet. -/
def lookup (m : Module) (name : Text) : Option Nat × Module :=
  let index := m.index.getD (extendIndex [] 0 m.decls)
  (Text.lookup? name index, { m with index := some index })

/-- The module with declarations added at its end. -/
def add (m : Module) (ds : List Decl) : Module :=
  { m with
    decls := m.decls ++ ds
    index := m.index.map fun index => extendIndex index m.decls.length ds }

/-- The module with one more import. -/
def addImport (m : Module) (ns path : Text) : Module :=
  { m with imports := m.imports ++ [{ ns, path }] }

/-- A setting of a backend; empty if it is not set. -/
def setting (m : Module) (backend key : Text) : Text :=
  ((Text.lookup? backend m.settings).bind (Text.lookup? key)).getD []

end Module

/-- The modules a program works on, by number. -/
abbrev Workspace := List Module

namespace Workspace

/-- The declaration at a place. -/
def decl? (w : Workspace) (id : DeclId) : Option Decl :=
  match w[id.module]? with
  | some m => m.decls[id.index]?
  | none => none

/-- The name of the module a declaration belongs to. -/
def moduleName (w : Workspace) (id : DeclId) : Text :=
  match w[id.module]? with
  | some m => m.name
  | none => []

/-- The name of a declaration with the name of its module in front. -/
def qualifiedName (w : Workspace) (id : DeclId) : Text :=
  match w.decl? id with
  | some d => if w.moduleName id == [] then d.name else w.moduleName id ++ "." ++ d.name
  | none => []

/-- The fields of the extended declaration followed by the declaration's own. Only virtual structs
are extended and these extend nothing, so there is one level of extension. -/
def allFields (w : Workspace) (d : Decl) : List Field :=
  match d.base.bind w.decl? with
  | some b => b.fields ++ d.fields
  | none => d.fields

/-- The places of the declarations of a module. -/
def declIds (w : Workspace) (m : Nat) : List DeclId :=
  match w[m]? with
  | some mod => (List.range mod.decls.length).map fun i => ⟨m, i⟩
  | none => []

end Workspace

end WireModel
