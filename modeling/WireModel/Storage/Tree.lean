import WireModel.Text.Path

/-!
# File trees

A directory tree as data: regular files with their content, and directories. Places in the tree
are lists of names, and the root itself is always there. A tree lists every place once; a place
that is listed has all its parents listed too.
-/

namespace WireModel

/-- A place in a tree: the names on the way from the root. -/
abbrev Place := List Text

namespace Place

/-- The place one segment of a path leads to. The parent of the root is the root. -/
def step (p : Place) (seg : Text) : Place :=
  if seg == [] || seg == "." then p else if seg == ".." then p.dropLast else p ++ [seg]

/-- The place a path leads to from a place, whatever stands on the way. -/
def follow (p : Place) (path : Text) : Place := (path.splitOn Path.slash).foldl step p

/-- The place of a path in a working directory. -/
def ofPath (cwd : Place) (path : Text) : Place :=
  if Path.isAbs path then follow [] path else follow cwd path

/-- The absolute path of a place. -/
def toPath (p : Place) : Text := Path.ofSegments true p

/-- The places on the way from the root, without the root and with the place itself. -/
def steps (p : Place) : List Place := (List.range p.length).map fun i => p.take (i + 1)

end Place

/-- What stands at a place. -/
inductive Entry where
  | file (content : Text)
  | dir
  deriving DecidableEq, Inhabited

/-- A directory tree. -/
structure FileTree where
  entries : List (Place × Entry) := []
  deriving Inhabited

/-- Why a place cannot be used. -/
inductive PathFault where
  | missing
  /-- Something on the way is a file. -/
  | notDirectory
  | isDirectory
  deriving DecidableEq, Inhabited

namespace PathFault

/-- The wording of a fault. -/
def reason : PathFault → Text
  | missing => "no such file or directory"
  | notDirectory => "not a directory"
  | isDirectory => "is a directory"

end PathFault

namespace FileTree

/-- What stands at a place. -/
def entry? (t : FileTree) (p : Place) : Option Entry :=
  if p.isEmpty then some .dir else (t.entries.find? (·.1 == p)).map (·.2)

/-- Whether a directory stands at a place. -/
def isDir (t : FileTree) (p : Place) : Bool := t.entry? p == some .dir

/-- The tree with an entry put at a place, whatever stood there. -/
def put (t : FileTree) (p : Place) (e : Entry) : FileTree :=
  if p.isEmpty then t
  else if t.entries.any (·.1 == p) then
    ⟨t.entries.map fun x => if x.1 == p then (p, e) else x⟩
  else ⟨t.entries ++ [(p, e)]⟩

/-- The tree with nothing at a place. -/
def erase (t : FileTree) (p : Place) : FileTree := ⟨t.entries.filter (·.1 != p)⟩

/-- The place a list of segments leads to, if every step starts from a directory. -/
def walk (t : FileTree) : Place → List Text → Except PathFault Place
  | p, [] => .ok p
  | p, seg :: rest =>
    match t.entry? p with
    | some .dir => t.walk (p.step seg) rest
    | some (.file _) => .error .notDirectory
    | none => .error .missing

/-- The tree with a directory at a place and on the whole way to it, unless a file stands there. -/
def makeDirs (t : FileTree) (p : Place) : Option FileTree :=
  if p.steps.any fun q => t.entry? q matches some (.file _) then none
  else some (p.steps.foldl (fun t q => if (t.entry? q).isSome then t else t.put q .dir) t)

/-- The tree with a file put at a place, and directories on the way. -/
def withFile (t : FileTree) (p : Place) (content : Text) : FileTree :=
  ((t.makeDirs p.dropLast).getD t).put p (.file content)

/-- The entry a path leads to in a working directory, step by step. -/
def visit (t : FileTree) (cwd : Place) (path : Text) : Except PathFault Entry :=
  if path == [] then .error .missing
  else
    match t.walk (if Path.isAbs path then [] else cwd) (path.splitOn Path.slash) with
    | .error e => .error e
    | .ok p =>
      match t.entry? p with
      | some e => .ok e
      | none => .error .missing

/-- The regular files with their contents, and the directories with nothing in them. -/
def leaves (t : FileTree) : List (Place × Entry) :=
  t.entries.filter fun (p, e) =>
    match e with
    | .file _ => true
    | .dir => !t.entries.any fun (q, _) => p.length < q.length && p.isPrefixOf q

end FileTree

end WireModel
