import WireModel.Command.Run

/-!
# The program

Runs command lines on the disk. Files are read when a run asks for them: a run that misses a file
is made again with the file, if there is one. What a run leaves in its tree is written under fresh
names first and then moved into place.
-/

namespace WireModel

/-- The bytes of a text. -/
def Text.toBytes (t : Text) : ByteArray := ⟨t.toArray⟩

/-- A text as a path of the disk. -/
def Text.onDisk (t : Text) : String := (String.fromUTF8? t.toBytes).getD ""

/-- The path a fault says cannot be found. -/
def Fault.missingPath? : Fault → Option Text
  | .path _ _ p reason => if reason == PathFault.missing.reason then some p else none
  | .load _ cause => cause.missingPath?
  | _ => none

/-- The wording of a fault, or what is known of it. -/
def Fault.outline : Fault → Text
  | .load file cause => "load " ++ file ++ ": " ++ cause.outline
  | .format step none => step
  | .config option _ none => messageMark ++ "config error for " ++ option.quote
  | f => f.message.getD "failed"

namespace Surroundings

/-- The surroundings with what the disk has at a path, if it has something there. -/
def fetch (s : Surroundings) (path : Text) : IO (Option Surroundings) := do
  let place := Place.ofPath s.cwd path
  try
    let content ← IO.FS.readBinFile place.toPath.onDisk
    return some { s with tree := s.tree.withFile place content.data.toList }
  catch _ =>
    try
      let _ ← IO.FS.realPath place.toPath.onDisk
      return (s.tree.makeDirs place).map fun tree => { s with tree }
    catch _ => return none

/-- The outcome of a command line with all files it asks for, and the surroundings with them. -/
partial def settle (s : Surroundings) (args : List Text) : IO (Surroundings × Outcome) := do
  let o := s.run args false
  match o.fault.bind Fault.missingPath? with
  | none => return (s, o)
  | some path =>
    match ← s.fetch path with
    | none => return (s, o)
    | some s => s.settle args

end Surroundings

namespace Outcome

/-- Prints what a run prints, and writes what it made. Gives the exit code. -/
def perform (before : FileTree) (o : Outcome) : IO UInt32 := do
  (← IO.getStdout).write o.stdout.toBytes
  (← IO.getStderr).write o.stderr.toBytes
  let made := o.tree.entries.filterMap fun (p, e) =>
    match e with
    | .file content => if before.entry? p == some e then none else some (p, content)
    | .dir => none
  for (p, content) in made do
    IO.FS.createDirAll (Place.toPath p.dropLast).onDisk
    IO.FS.writeBinFile (p.toPath ++ ".new").onDisk content.toBytes
  for (p, _) in made do
    IO.FS.rename (p.toPath ++ ".new").onDisk p.toPath.onDisk
  match o.fault with
  | none => return 0
  | some f =>
    (← IO.getStderr).write ("specgen: " ++ f.outline ++ "\n").toBytes
    return 1

end Outcome

/-- Runs a command line again whenever the files it reads have changed. -/
partial def watchFiles (start : Surroundings) (args : List Text) (last : FileTree) : IO UInt32 := do
  IO.sleep 200
  let (s, o) ← start.settle args
  if s.tree.entries != last.entries then
    let _ ← o.perform s.tree
  watchFiles start args s.tree

/-- Runs a command line. -/
def runLine (args : List String) : IO UInt32 := do
  let line := args.map Text.ofString
  let cwd := Place.ofPath [] (Text.ofString (toString (← IO.currentDir)))
  let bare : Surroundings := { tree := (FileTree.makeDirs {} cwd).getD {}, cwd }
  let start := (← bare.fetch Config.fileName).getD bare
  let (s, o) ← start.settle line
  let code ← o.perform s.tree
  match Invocation.ofLine line with
  | .ok { options := { watch := true, .. }, .. } =>
    if code == 0 then watchFiles start line s.tree else return code
  | _ => return code

end WireModel

/-- The program. -/
def main (args : List String) : IO UInt32 := WireModel.runLine args
