import WireModel.Storage.Write

/-!
# Writing files, operation by operation

What writing asks of the system for a file: to make its directory, to make a temporary file, to
write to it, to close it and to set its mode, and at the end to rename it. Each of these may fail,
at any time. A temporary file that was made is closed in any case, and when anything about it has
failed it is removed at once; the temporary files of the files before it are removed after that.

A `Disk` refuses a step for a file whenever it is asked for it, and to refuse to write stands there
for all that can fail about a temporary file.
-/

namespace WireModel

/-- The operations that writing files asks for. -/
inductive FileOp where
  | makeDir
  | createTemp
  | write
  | close
  | setMode
  | rename
  deriving DecidableEq, Inhabited

/-- What befalls a run of operations, which are counted from its start. The operation to make a
directory is for the place of the directory, and every other one for the place of the file. -/
structure Circumstances (avoid : List Place) where
  /-- Whether an operation fails. -/
  fails : (clock : Nat) → FileOp → Place → Bool
  /-- How much of a text is written by an operation that fails. -/
  written : (clock : Nat) → Nat
  /-- The number that is drawn for the name of a temporary file. -/
  number : (clock : Nat) → FileTree → (dir : Place) → (name : Text) → Nat
  /-- No name that is drawn is taken, or one of the places to `avoid`. -/
  fresh : ∀ clock t dir name,
    FileTree.tempName dir name (number clock t dir name) ∉ t.entries.map (·.1) ++ avoid

/-- A tree that files are written to, after some operations. -/
structure Writing where
  tree : FileTree
  clock : Nat := 0

namespace Writing

variable {avoid : List Place} (c : Circumstances avoid)

/-- Asks for an operation, and tells whether it was carried out. It does one thing to the tree if it
was, and another if it failed. -/
def attempt (w : Writing) (op : FileOp) (p : Place) (done failed : FileTree → FileTree) :
    Writing × Bool :=
  if c.fails w.clock op p then ({ tree := failed w.tree, clock := w.clock + 1 }, false)
  else ({ tree := done w.tree, clock := w.clock + 1 }, true)

/-- Makes the directories that are missing among places, up to the first that cannot be made. -/
def makeDirs : Writing → List Place → Writing × Bool
  | w, [] => (w, true)
  | w, p :: ps =>
    match w.tree.entry? p with
    | some .dir => makeDirs w ps
    | some (.file _) => (w, false)
    | none =>
      match w.attempt c .makeDir p (·.put p .dir) id with
      | (w, false) => (w, false)
      | (w, true) => makeDirs w ps

/-- Writes a text to a new temporary file of a file, closes it, and sets its mode if nothing has
failed. -/
def fill (w : Writing) (target temp : Place) (text : Text) : Writing × Bool :=
  let part := text.take (c.written w.clock)
  match w.attempt c .write target (·.put temp (.file text)) (·.put temp (.file part)) with
  | (w, wrote) =>
    match w.attempt c .close target id id with
    | (w, closed) =>
      if wrote && closed then w.attempt c .setMode target id id else (w, false)

/-- Stages one file: its content is in a temporary file in the end, or there is none. -/
def stage (w : Writing) (dir : Place) (f : OutputFile) : Writing × Except Fault Staged :=
  let target := dir.follow f.path
  let parent := target.dropLast
  match w.makeDirs c (Place.steps parent) with
  | (w, false) => (w, .error (writeFault f "create directory"))
  | (w, true) =>
    let name := target.getLastD []
    let temp := FileTree.tempName parent name (c.number w.clock w.tree parent name)
    match w.attempt c .createTemp target (·.put temp (.file [])) id with
    | (w, false) => (w, .error (writeFault f "create file"))
    | (w, true) =>
      match w.fill c target temp f.content with
      | (w, false) => ({ w with tree := w.tree.erase temp }, .error (writeFault f "write file"))
      | (w, true) => (w, .ok { file := f, temp, target })

/-- Stages files one after the other, up to the first that fails. The files that were staged come
back in any case. -/
def stageAll (dir : Place) : Writing → List OutputFile → Writing × List Staged × Option Fault
  | w, [] => (w, [], none)
  | w, f :: fs =>
    match w.stage c dir f with
    | (w, .error e) => (w, [], some e)
    | (w, .ok s) =>
      match stageAll dir w fs with
      | (w, staged, e) => (w, s :: staged, e)

/-- The run without the temporary files of staged ones. -/
def cleanUp (w : Writing) (staged : List Staged) : Writing :=
  { w with tree := w.tree.discard staged }

/-- Renames the temporary files of staged ones, up to the first that cannot be renamed: a directory
is never replaced. -/
def replaceAll : Writing → List Staged → Writing × Option Fault
  | w, [] => (w, none)
  | w, s :: rest =>
    if w.tree.isDir s.target then
      (w.cleanUp (s :: rest), some (writeFault s.file "replace file"))
    else
      match w.attempt c .rename s.target (·.move s.temp s.target) id with
      | (w, false) => (w.cleanUp (s :: rest), some (writeFault s.file "replace file"))
      | (w, true) => replaceAll w rest

/-- Writes files below a directory. -/
def writeFiles (w : Writing) (dir : Place) (files : List OutputFile) : Writing × Option Fault :=
  match w.stageAll c dir files with
  | (w, staged, some e) => (w.cleanUp staged, some e)
  | (w, staged, none) => w.replaceAll c staged

end Writing

end WireModel
