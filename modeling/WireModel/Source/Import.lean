import WireModel.Source.Syntax
import WireModel.Text.Path

/-!
# Imports of generated source

A file imports the packages whose names it uses. A package is known by its usual name, or by an
alias where that name would be hidden; a name that is reserved or taken gets a number. Names are
given in the order in which the packages are first met.

The package of foreign code has a path of one letter and is always called by it.
-/

namespace WireModel.Source

/-- How a package likes to be called. -/
structure Hint where
  path : Text
  name : Text
  /-- The name is not the package's own. -/
  aliased : Bool := false
  deriving DecidableEq, Inhabited

/-- An import of a file. -/
structure ImportSpec where
  path : Text
  name : Text
  /-- The name is written in front of the path. -/
  aliased : Bool
  deriving DecidableEq, Inhabited

/-- The word a name is in the source: blanks around it are not part of it. -/
def ImportSpec.word (i : ImportSpec) : Text := i.name.trimBytes isSpacing

/-- Words of the target language that mean something without being declared. -/
def predeclared : List Text :=
  List.map Text.ofString ["bool", "byte", "complex64", "complex128", "error", "float32", "float64",
    "int", "int8", "int16", "int32", "int64", "rune", "string", "uint", "uint8", "uint16", "uint32",
    "uint64", "uintptr", "true", "false", "iota", "nil", "append", "cap", "clear", "close", "complex",
    "copy", "delete", "imag", "len", "make", "max", "min", "new", "panic", "print", "println",
    "real", "recover"]

/-- Whether no package may be called so: a keyword, a predeclared word, or the usual name of an
error. -/
def isReserved (name : Text) : Bool :=
  Naming.keywords.contains name || predeclared.contains name || name == "err"

/-- The hint for a package: the last one that was given, or the last segment of its path. -/
def hintFor (hints : List Hint) (path : Text) : Hint :=
  ((hints.filter (·.path == path)).getLast?).getD { path, name := Path.base path, aliased := true }

/-- The name with the least number behind it that makes it usable; none if it is usable itself. -/
def uniqueName (taken : List Text) (name : Text) : Text :=
  let usable (t : Text) : Bool := !isReserved t && !taken.contains t
  if usable name then name
  else
    let candidate (i : Nat) : Text := name ++ Text.ofNat (i + 1)
    let bound := taken.length + Naming.keywords.length + predeclared.length + 1
    candidate (((List.range bound).find? fun i => usable (candidate i)).getD bound)

/-- The path and the name of the package of foreign code. -/
def foreignPackage : Text := "C"

/-- The import of a package, after those that are given. -/
def nameImport (hints : List Hint) (given : List ImportSpec) (path : Text) : ImportSpec :=
  if path == foreignPackage then { path, name := foreignPackage, aliased := false }
  else
    let hint := hintFor hints path
    let name := uniqueName (given.map (·.name)) hint.name
    { path, name, aliased := hint.aliased || name != hint.name }

/-- The imports of packages, after those that are given. -/
def nameImports (hints : List Hint) : (given : List ImportSpec) → List Text → List ImportSpec
  | given, [] => given
  | given, path :: paths => nameImports hints (given ++ [nameImport hints given path]) paths

/-- The imports of a file. -/
def File.imports (hints : List Hint) (f : File) : List ImportSpec :=
  nameImports hints [] f.packages

/-- An import as it is written. -/
def ImportSpec.write (i : ImportSpec) : Text :=
  if i.aliased then i.word ++ " " ++ i.path.quote else i.path.quote

/-- The lines of the imports of a file, in the order of their paths. -/
def importLines (is : List ImportSpec) : List Text :=
  match is with
  | [] => []
  | [i] => ["import " ++ i.write]
  | is =>
    let sorted := is.mergeSort fun a b => Text.le a.path b.path
    [Text.ofString "import ("] ++ (sorted.map fun i => '\t'.toUInt8 :: i.write) ++
      [Text.ofString ")"]

end WireModel.Source
