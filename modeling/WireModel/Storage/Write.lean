import WireModel.Emit.Config
import WireModel.Emit.Generator
import WireModel.Storage.Tree

/-!
# Writing files

Generated files replace what is there only after all of them are on disk. First every file is
staged: its directory is made and its content is written under a fresh name beside its target.
Then the staged files are moved to their targets, one after the other.

When staging fails, the staged files are removed again and nothing was replaced; the directories
that were made stay. When a move fails, the files before it are replaced and those from it on are
not.

A `Disk` may refuse any step for reasons of its own, such as lack of space or of permission. It
refuses to make a directory at the place of the directory, and every other step at the place of
the file.
-/

namespace WireModel

/-- The steps of writing a file that a disk may refuse. -/
inductive DiskStep where
  | makeDir
  | createTemp
  | writeTemp
  | replace
  deriving DecidableEq, Inhabited

/-- A tree on a disk. -/
structure Disk where
  tree : FileTree
  /-- Whether the disk refuses a step for the file at a place. -/
  refuses : DiskStep → Place → Bool := fun _ _ => false

/-- A file that is written but not yet in place. -/
structure Staged where
  file : OutputFile
  /-- Where it is written. -/
  temp : Place
  /-- Where it belongs. -/
  target : Place

/-- A fault of writing a file; what the disk says has no words here. -/
def writeFault (f : OutputFile) (detail : Text) : Fault :=
  .generationBy { file := f.path } detail .unworded

/-- The places of files below a directory, and those on the way to them. -/
def Place.onTheWay (dir : Place) (files : List OutputFile) : List Place :=
  files.flatMap fun f => (dir.follow f.path).steps

namespace FileTree

/-- A name for a temporary file in a directory: the name of the target between dots and a number. -/
def tempName (dir : Place) (name : Text) (n : Nat) : Place :=
  dir ++ ["." ++ name ++ "." ++ Text.ofNat n]

/-- The first such name that is neither taken in the tree nor one of the places to `avoid`. -/
def freshName (t : FileTree) (avoid : List Place) (dir : Place) (name : Text) : Place :=
  let taken := t.entries.map (·.1) ++ avoid
  let free := (List.range (taken.length + 1)).find? fun n => !taken.contains (tempName dir name n)
  tempName dir name (free.getD 0)

/-- The tree with what stands at a place moved to another, whatever stood there. -/
def move (t : FileTree) (p q : Place) : FileTree :=
  match t.entry? p with
  | some e => (t.erase p).put q e
  | none => t

/-- The tree without the temporary files of staged ones. -/
def discard (t : FileTree) (staged : List Staged) : FileTree :=
  staged.foldl (fun t s => t.erase s.temp) t

end FileTree

namespace Disk

/-- Makes the directories that are missing among places, up to the first that cannot be made. Gives
the tree with those that were made, and whether all of them are there. -/
def makeDirs (d : Disk) : List Place → FileTree × Bool
  | [] => (d.tree, true)
  | p :: ps =>
    match d.tree.entry? p with
    | some .dir => makeDirs d ps
    | some (.file _) => (d.tree, false)
    | none =>
      if d.refuses .makeDir p then (d.tree, false)
      else makeDirs { d with tree := d.tree.put p .dir } ps

/-- Stages one file, under a name that is none of the places to `avoid`. The tree that comes back
holds the directories made, also on failure. -/
def stage (d : Disk) (avoid : List Place) (dir : Place) (f : OutputFile) :
    FileTree × Except Fault Staged :=
  let target := dir.follow f.path
  let parent := target.dropLast
  match d.makeDirs (Place.steps parent) with
  | (t, false) => (t, .error (writeFault f "create directory"))
  | (t, true) =>
    if d.refuses .createTemp target then (t, .error (writeFault f "create file"))
    else if d.refuses .writeTemp target then (t, .error (writeFault f "write file"))
    else
      let temp := t.freshName avoid parent (target.getLastD [])
      (t.put temp (.file f.content), .ok { file := f, temp, target })

/-- Stages files one after the other, up to the first that fails. The files that were staged come
back in any case. -/
def stageAll (d : Disk) (avoid : List Place) (dir : Place) :
    List OutputFile → Disk × List Staged × Option Fault
  | [] => (d, [], none)
  | f :: fs =>
    match d.stage avoid dir f with
    | (t, .error e) => ({ d with tree := t }, [], some e)
    | (t, .ok s) =>
      let (d, staged, e) := stageAll { d with tree := t } avoid dir fs
      (d, s :: staged, e)

/-- Moves staged files to their targets, up to the first that cannot be moved: a directory is never
replaced. -/
def replaceAll (d : Disk) : List Staged → FileTree × Option Fault
  | [] => (d.tree, none)
  | s :: rest =>
    if d.refuses .replace s.target || d.tree.isDir s.target then
      (d.tree.discard (s :: rest), some (writeFault s.file "replace file"))
    else replaceAll { d with tree := d.tree.move s.temp s.target } rest

/-- Writes files below a directory. No temporary name is on the way to a target, as names are drawn
at random. -/
def writeFiles (d : Disk) (dir : Place) (files : List OutputFile) : FileTree × Option Fault :=
  match d.stageAll (dir.onTheWay files) dir files with
  | (d, staged, some e) => (d.tree.discard staged, some e)
  | (d, staged, none) => d.replaceAll staged

/-- Renders everything and writes it below the target directory of the settings, which is read in
the working directory `cwd`. Nothing is written unless everything is rendered. -/
def generate (d : Disk) (cwd : Place) (cfg : Config) (backends : List Backend)
    (graph : Option ModuleGraph) (canceled : Bool) : FileTree × Option Fault :=
  if cfg.target == [] then
    (d.tree, some (.setting "Target" "target directory cannot be empty"))
  else
    match render backends graph canceled with
    | .error f => (d.tree, some f)
    | .ok files => d.writeFiles (.ofPath cwd cfg.target) files

end Disk

end WireModel
