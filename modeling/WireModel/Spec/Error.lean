import WireModel.Text.Basic

/-!
# Compile errors

What is wrong with a set of modules, and where. Compile errors end a run; they never reach
generated output.
-/

namespace WireModel

/-- The kinds of compile errors. -/
inductive ErrorKind where
  /-- A reference to a name that is not in scope. -/
  | unresolvedReference
  /-- An import of a module that is not given. -/
  | unresolvedImport
  /-- Modules that import each other. -/
  | importCycle
  /-- One alias for two modules. -/
  | ambiguousAlias
  /-- An optional of an optional. -/
  | invalidOptionalNesting
  /-- Two things of one name in one scope. -/
  | duplicateDeclaration
  /-- A reference to a declaration without values. -/
  | invalidReference
  /-- Newtypes that wrap each other. -/
  | invalidRecursion
  /-- A malformed declaration or type. -/
  | invalidDeclaration
  deriving DecidableEq, Inhabited

namespace ErrorKind

/-- All kinds, in the order of reports. -/
def all : List ErrorKind :=
  [unresolvedReference, unresolvedImport, importCycle, ambiguousAlias, invalidOptionalNesting,
    duplicateDeclaration, invalidReference, invalidRecursion, invalidDeclaration]

/-- The name of a kind. -/
def name : ErrorKind → Text
  | unresolvedReference => "unresolved reference"
  | unresolvedImport => "unresolved import"
  | importCycle => "import cycle"
  | ambiguousAlias => "ambiguous alias"
  | invalidOptionalNesting => "invalid optional nesting"
  | duplicateDeclaration => "duplicate declaration name"
  | invalidReference => "invalid reference"
  | invalidRecursion => "invalid recursion"
  | invalidDeclaration => "invalid declaration"

end ErrorKind

/-- The program's mark in front of messages. -/
def messageMark : Text := "specgen: "

/-- A compile error, with what is known of its place. Empty texts stand for nothing known. -/
structure CompileError where
  /-- The kind, if it is one of the known ones. -/
  kind : Option ErrorKind
  module : Text := []
  decl : Text := []
  field : Text := []
  name : Text := []
  detail : Text := []
  deriving DecidableEq, Inhabited

namespace CompileError

/-- A part of a message that is left out when there is nothing to say. -/
def part (head value tail : Text) : Text := if value == [] then [] else head ++ value ++ tail

/-- The wording of an error. -/
def message (e : CompileError) : Text :=
  messageMark ++ (match e.kind with
    | some k => k.name
    | none => "compile error") ++
  part " \"" e.name "\"" ++
  part " in module \"" e.module "\"" ++
  part " declaration " e.decl "" ++
  part " field " e.field "" ++
  part ": " e.detail ""

end CompileError

end WireModel
