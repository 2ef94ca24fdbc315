import WireModel.SpecFile.Declare
import WireModel.SpecFile.Format
import WireModel.Storage.Read

/-!
# Loading spec files

A loader turns spec files into modules, together with the files they include. A module is named
after the path of its file relative to the root of the loader, without the extension. Every file is
loaded once, and is then known by its absolute path; a module comes after the modules it includes.

Files that include each other are no fault here: an include of a file that is still being loaded
binds the import, and the linker reports the cycle.
-/

namespace WireModel

/-- The modules loaded so far. -/
structure Loader where
  /-- The absolute path module names are relative to. -/
  root : Text
  /-- The absolute path of every loaded file and its module, in the order of loading. -/
  files : List (Text × Module) := []
  deriving Inhabited

/-- The file system a loader works on: a tree and the working directory. -/
structure Surroundings where
  tree : FileTree
  cwd : Place := []

namespace Surroundings

/-- The absolute form of a path. -/
def absolute (s : Surroundings) (path : Text) : Text := Path.absolute s.cwd.toPath path

/-- The spec file at a path. -/
def read (s : Surroundings) (file : Text) : Except Fault SpecFile :=
  s.tree.readFile s.cwd [] file >>= SpecFile.decode file

/-- The absolute paths under which files can be read and loaded: the normal paths of all files, and
the absolute paths that are written in them as includes. -/
def knownPaths (s : Surroundings) : List Text :=
  s.tree.entries.flatMap fun (p, e) =>
    match e with
    | .dir => []
    | .file content =>
      p.toPath ::
        match SpecFile.decode (p.getLastD []) content with
        | .error _ => []
        | .ok f => f.absoluteIncludes

end Surroundings

namespace Loader

/-- A loader for a root. -/
def new (s : Surroundings) (root : Text) : Loader := { root := s.absolute root }

/-- The loaded modules in the order of loading. -/
def modules (l : Loader) : List Module := l.files.map (·.2)

/-- The module of a file that is loaded. -/
def module? (l : Loader) (file : Text) : Option Module := Text.lookup? file l.files

/-- The name of the module of a file, if the file is below the root. -/
def moduleName? (l : Loader) (file : Text) : Option Text :=
  match Path.rel? l.root file with
  | none => none
  | some rel =>
    if rel == ".." || ("../" : Text).isPrefixOf rel then none
    else some ((Text.stripEnd? (Path.ext rel) rel).getD rel)

/-- The absolute path an include of a file leads to. -/
def includePath (file path : Text) : Text :=
  if Path.isAbs path then path else Path.join [Path.dir file, path]

/-- Loads the includes of a file one after the other, up to the first that fails, and gives the
imports they become. -/
def loadIncludes (load : Loader → Text → Loader × Except Fault Text) (file : Text) :
    Loader → List (Option IncludeEntry) → Loader × Except Fault (List Import)
  | l, [] => (l, .ok [])
  | l, none :: _ => (l, .error .nullEntry)
  | l, some i :: rest =>
    if i.ns == [] then
      (l, .error (.load file (.plain ("include " ++ i.path.quote ++ ": missing namespace"))))
    else
      match load l (includePath file i.path) with
      | (l, .error f) => (l, .error f)
      | (l, .ok path) =>
        match loadIncludes load file l rest with
        | (l, .error f) => (l, .error f)
        | (l, .ok imports) => (l, .ok ({ ns := i.ns, path } :: imports))

/-- The loader with the module of one more file. -/
def add (l : Loader) (file : Text) (m : Module) : Loader :=
  { l with files := l.files ++ [(file, m)] }

/-- Makes the module of a file whose includes are loaded, and gives its path. -/
def enter (file name : Text) (content : SpecFile) (imports : List Import) (l : Loader) :
    Loader × Except Fault Text :=
  let m : Module :=
    { name, path := name, doc := content.doc, settings := content.settings, imports }
  match content.declare m with
  | .error .nullEntry => (l, .error .nullEntry)
  | .error f => (l, .error (.load file f))
  | .ok m => (l.add file m, .ok m.path)

/-- Loads the file at an absolute path, unless it is loaded or being loaded, and gives the path of
its module. `stack` holds the files being loaded with the paths of their modules. A file that is
being loaded is not loaded again, so fuel for all known paths is enough. -/
def loadFile (s : Surroundings) : (fuel : Nat) → (stack : List (Text × Text)) → Loader →
    (file : Text) → Loader × Except Fault Text
  | 0, _, l, _ => (l, .error .unworded)
  | fuel + 1, stack, l, file =>
    match l.module? file, Text.lookup? file stack with
    | some m, _ => (l, .ok m.path)
    | none, some path => (l, .ok path)
    | none, none =>
      match l.moduleName? file with
      | none => (l, .error (.load file (.plain ("file is outside of the root " ++ l.root))))
      | some name =>
        match s.read file with
        | .error f => (l, .error (.load file f))
        | .ok content =>
          match loadIncludes (loadFile s fuel ((file, name) :: stack)) file l content.includes with
          | (l, .error f) => (l, .error f)
          | (l, .ok imports) => l.enter file name content imports

/-- Loads the file at a path and the files it includes, and gives its module. -/
def load (s : Surroundings) (l : Loader) (path : Text) : Loader × Except Fault Module :=
  let file := s.absolute path
  match loadFile s (s.knownPaths.length + 1) [] l file with
  | (l, .error f) => (l, .error f)
  | (l, .ok _) =>
    match l.module? file with
    | some m => (l, .ok m)
    | none => (l, .error .unworded)

/-- Loads files one after the other, up to the first that fails. -/
def loadAll (s : Surroundings) : Loader → List Text → Except Fault Loader
  | l, [] => .ok l
  | l, p :: ps =>
    match l.load s p with
    | (_, .error f) => .error f
    | (l, .ok _) => loadAll s l ps

/-- The loader after loads one after the other, those that fail included. -/
def loadEach (s : Surroundings) (l : Loader) (paths : List Text) : Loader :=
  paths.foldl (fun l p => (l.load s p).1) l

end Loader

/-- The modules of files and of all files they include, with the directory of the first file as
the root. -/
def loadFiles (s : Surroundings) : List Text → Except Fault (List Module)
  | [] => .error (.plain "load: no spec files")
  | p :: ps => Loader.modules <$> Loader.loadAll s (.new s (Path.dir p)) (p :: ps)

end WireModel
