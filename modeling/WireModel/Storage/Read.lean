import WireModel.Fault
import WireModel.Storage.Tree

/-!
# Reading files

A file is read by its path in a working directory. A path that leads nowhere cannot be opened; a
directory can be opened but not read.
-/

namespace WireModel.FileTree

/-- The content of the file a path leads to. The fault has some words in front. -/
def readFile (t : FileTree) (cwd : Place) (words path : Text) : Except Fault Text :=
  match t.visit cwd path with
  | .ok (.file content) => .ok content
  | .ok .dir => .error (.path words "read" path PathFault.isDirectory.reason)
  | .error e => .error (.path words "open" path e.reason)

end WireModel.FileTree
