import WireModel.Naming.Identifier
import WireModel.Text.Letter
import WireModel.Value.Basic

/-!
# Generated source

The part of the target language that generated files are written in: type declarations, constants,
one kind of table, and functions whose bodies are a few assignments, checks and returns. Names of
other packages are kept with the path of their package; under which name a package is imported is
decided when a file is laid out.

A lookup table has its entries in the order of its quoted keys, which is how tables are written.
-/

namespace WireModel.Source

/-- A name, of the file's own package or of another one. -/
inductive Name where
  | plain (id : Text)
  /-- A name of the package with an import path. -/
  | qualified (package id : Text)
  deriving DecidableEq, Inhabited

/-- A type. -/
inductive TypeTerm where
  | name (n : Name)
  | pointer (t : TypeTerm)
  | slice (t : TypeTerm)
  /-- A mapping from texts. -/
  | table (t : TypeTerm)
  deriving DecidableEq, Inhabited

namespace TypeTerm

/-- A type that is known everywhere. -/
def builtin (id : Text) : TypeTerm := name (.plain id)

/-- The type of any value. -/
def any : TypeTerm := builtin "any"

end TypeTerm

/-- An expression. -/
inductive Expr where
  | name (n : Name)
  | text (t : Text)
  | int (n : Int)
  /-- A member of a value, or a method of a type. -/
  | select (x : Expr) (member : Text)
  /-- What a pointer points to. -/
  | deref (x : Expr)
  | call (f : Expr) (args : List Expr)
  /-- A generic function at a type. -/
  | instantiate (f : Name) (t : TypeTerm)
  /-- A value converted to a type. -/
  | convert (t : TypeTerm) (x : Expr)
  /-- A function of one parameter that returns an expression of any type. -/
  | lambda (param : Text) (t : TypeTerm) (result : Expr)
  /-- A value of a struct type with at most one member given. -/
  | record (type : Text) (member : Option (Text × Expr))
  /-- A mapping from texts to values of a type. -/
  | table (t : TypeTerm) (entries : List (Text × Expr))
  deriving Inhabited

namespace Expr

/-- A variable. -/
def var (id : Text) : Expr := name (.plain id)

/-- The value that is no value. -/
def nil : Expr := var "nil"

/-- The error variable. -/
def err : Expr := var "err"

/-- A table with its entries in the order of the quoted keys. -/
def sortedTable (t : TypeTerm) (entries : List (Text × Expr)) : Expr :=
  table t (entries.mergeSort fun a b => Text.le a.1.quote b.1.quote)

end Expr

/-- A statement. -/
inductive Stmt where
  /-- `targets := value`. -/
  | define (targets : List Expr) (value : Expr)
  /-- `var id type`. -/
  | declare (id type : Text)
  /-- A return in the case of an error. -/
  | check (results : List Expr)
  /-- `targets = value` or `targets := value`, and a return in the case of an error. -/
  | tryAssign (define : Bool) (targets : List Expr) (value : Expr) (results : List Expr)
  | return (results : List Expr)
  /-- A choice by a text, with the statements for all other texts last. -/
  | switch (subject : Text) (cases : List (Text × List Stmt)) (other : List Stmt)
  deriving Inhabited

/-- A field of a struct. -/
structure FieldDecl where
  doc : Text := []
  name : Text
  type : TypeTerm
  deriving Inhabited

/-- A member of an interface. -/
inductive Member where
  /-- All members of another interface. -/
  | embedded (n : Name)
  | method (name : Text) (result : Option TypeTerm)
  deriving Inhabited

/-- A constant of a named type. -/
structure ConstDecl where
  doc : Text := []
  name : Text
  type : Text
  value : Expr
  deriving Inhabited

/-- Whom a method belongs to, and how the body calls the value. -/
structure Receiver where
  name : Option Text
  type : Text
  deriving Inhabited

/-- A function or method. -/
structure FuncDecl where
  receiver : Option Receiver := none
  name : Text
  params : List (Text × TypeTerm) := []
  results : List TypeTerm := []
  body : List Stmt := []
  deriving Inhabited

/-- A declaration. -/
inductive Item where
  | struct (name : Text) (fields : List FieldDecl)
  | interface (name : Text) (members : List Member)
  | defined (name : Text) (t : TypeTerm)
  | func (f : FuncDecl)
  | consts (cs : List ConstDecl)
  | var (name : Text) (t : Option TypeTerm) (value : Expr)
  deriving Inhabited

/-- The kinds of declarations that an empty line divides. -/
inductive ItemKind where
  | package
  | imports
  | type
  | func
  | const
  | var
  deriving DecidableEq, Inhabited

/-- The kind of a declaration. -/
def Item.kind : Item → ItemKind
  | .struct _ _ | .interface _ _ | .defined _ _ => .type
  | .func _ => .func
  | .consts _ => .const
  | .var _ _ _ => .var

/-- A declaration with its comment; an empty one stands for none. -/
structure Documented where
  doc : Text := []
  item : Item
  deriving Inhabited

/-- A file. -/
structure File where
  /-- The comment at the top. -/
  header : Text
  /-- The comment of the package; an empty one stands for none. -/
  doc : Text
  package : Text
  /-- The import path of the file's own package. -/
  path : Text
  items : List Documented
  deriving Inhabited

/-! ## Packages in use -/

/-- The package of a name of another package. -/
def Name.packages : Name → List Text
  | .plain _ => []
  | .qualified p _ => [p]

/-- The packages a type uses. -/
def TypeTerm.packages : TypeTerm → List Text
  | .name n => n.packages
  | .pointer t | .slice t | .table t => t.packages

mutual

/-- The packages an expression uses, as they are met. -/
def Expr.packages : Expr → List Text
  | .name n => n.packages
  | .text _ | .int _ => []
  | .select x _ | .deref x => x.packages
  | .call f args => f.packages ++ Expr.listPackages args
  | .instantiate f t => f.packages ++ t.packages
  | .convert t x => t.packages ++ x.packages
  | .lambda _ t x => t.packages ++ x.packages
  | .record _ (some (_, x)) => x.packages
  | .record _ none => []
  | .table t es => t.packages ++ Expr.entryPackages es

/-- The packages expressions use. -/
def Expr.listPackages : List Expr → List Text
  | [] => []
  | x :: xs => x.packages ++ Expr.listPackages xs

/-- The packages the entries of a table use. -/
def Expr.entryPackages : List (Text × Expr) → List Text
  | [] => []
  | (_, x) :: es => x.packages ++ Expr.entryPackages es

end

mutual

/-- The packages a statement uses, as they are met. -/
def Stmt.packages : Stmt → List Text
  | .define ts x => ts.flatMap Expr.packages ++ x.packages
  | .declare _ _ => []
  | .check rs => rs.flatMap Expr.packages
  | .tryAssign _ ts x rs => ts.flatMap Expr.packages ++ x.packages ++ rs.flatMap Expr.packages
  | .return rs => rs.flatMap Expr.packages
  | .switch _ cases other => Stmt.casePackages cases ++ Stmt.listPackages other

/-- The packages statements use. -/
def Stmt.listPackages : List Stmt → List Text
  | [] => []
  | s :: ss => s.packages ++ Stmt.listPackages ss

/-- The packages the cases of a choice use. -/
def Stmt.casePackages : List (Text × List Stmt) → List Text
  | [] => []
  | (_, ss) :: cs => Stmt.listPackages ss ++ Stmt.casePackages cs

end

/-- The packages a declaration uses, as they are met. -/
def Item.packages : Item → List Text
  | .struct _ fs => fs.flatMap fun f => f.type.packages
  | .interface _ ms => ms.flatMap fun
    | .embedded n => n.packages
    | .method _ t => (t.map TypeTerm.packages).getD []
  | .defined _ t => t.packages
  | .func f =>
    (f.params.flatMap fun p => p.2.packages) ++ f.results.flatMap TypeTerm.packages ++
      Stmt.listPackages f.body
  | .consts cs => cs.flatMap fun c => c.value.packages
  | .var _ t x => (t.map TypeTerm.packages).getD [] ++ x.packages

/-- The other packages a file uses, in the order in which they are first met. -/
def File.packages (f : File) : List Text :=
  ((f.items.flatMap fun d => d.item.packages).filter (· != f.path)).eraseDups

/-! ## Names that are declared -/

/-- A byte that keeps words on one line apart and means nothing else. -/
def isSpacing (b : UInt8) : Bool := b == ' '.toUInt8 || b == '\t'.toUInt8 || b == '\r'.toUInt8

/-- Whether a rune may start an identifier. -/
def isIdentStart (r : Rune) : Bool :=
  match r with
  | .code c => Text.isLetterRune c || c == '_'.toNat
  | .stray _ => false

/-- Whether a rune may stand in an identifier. -/
def isIdentRune (r : Rune) : Bool :=
  isIdentStart r || (match r with
    | .code c => Text.isDigitRune c
    | .stray _ => false)

/-- Whether a text is an identifier of the target language. -/
def isIdentifier (t : Text) : Bool :=
  match t.runes with
  | [] => false
  | r :: rs => isIdentStart r && rs.all isIdentRune && !Naming.keywords.contains t

/-- The identifiers a declaration makes or names as its own. -/
def Item.identifiers : Item → List Text
  | .struct n fs => n :: fs.map (·.name)
  | .interface n ms => n :: ms.filterMap fun
    | .method m _ => some m
    | .embedded _ => none
  | .defined n _ => [n]
  | .func f =>
    f.name :: ((f.receiver.map fun r => r.type :: r.name.toList).getD [] ++ f.params.map (·.1))
  | .consts cs => cs.flatMap fun c => [c.name, c.type]
  | .var n _ _ => [n]

end WireModel.Source
