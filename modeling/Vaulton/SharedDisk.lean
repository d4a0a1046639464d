import Vaulton.Transfer

/-! Transfers on one disk. The root of a local point is a directory of the file system, so
the storage of such a point is a part of a tree that other points may see too: roots may be
the same or lie inside one another. -/

namespace Vaulton.SharedDisk
open Vaulton.Lib Vaulton.Config Vaulton.Paths Vaulton.Transfer

/-- The directory of each point that is stored on the disk. -/
abbrev Roots := Uuid → Option Path

/-- The directories that the root options of the local points name; `directory` is how the
file system reads one. -/
def localRoots (directory : Text → Path) (users : List VfsUser) : Roots := fun id =>
  ((allPoints users).find? fun point => point.id = id).bind fun point =>
    if point.isRepo ∨ ¬isLocalScheme point.scheme then none
    else
      match localSourcePath point with
      | .ok root => some (directory root)
      -- The backend of such a point cannot be opened.
      | .error _ => some (directory [])

section Disk

variable (roots : Roots) (others : Storage)

/-- What the backends of the points see: a local one its part of the disk. -/
def view (disk : FileTree) : Storage := fun id =>
  match roots id with
  | some root => disk.subtree root
  | none => others id

/-- The only point that a step of a job writes to. -/
def written (plan : TransferPlan) : TransferPc → Option Uuid
  | .deleteSource => (locate plan.srcOp plan.srcPath).map Prod.fst
  | _ => (locate plan.dstOp plan.dstPath).map Prod.fst

/-- The disk once a point has become what it is in `storage`. A job writes to local points
only. -/
def settle (disk : FileTree) (id : Option Uuid) (storage : Storage) : FileTree :=
  match id, id.bind roots with
  | some id, some root => disk.replace root (storage id)
  | _, _ => disk

structure DiskState where
  disk : FileTree
  done : Nat
  pc : TransferPc

def diskStart (disk : FileTree) : DiskState := ⟨disk, 0, .recheck⟩

/-- One step of `run_transfer` on the disk. -/
def diskStep (plan : TransferPlan) (state : DiskState) (answer : Answer) : Option DiskState :=
  (transferStep plan ⟨view roots others state.disk, state.done, state.pc⟩ answer).map fun next =>
    ⟨settle roots state.disk (written plan state.pc) next.storage, next.done, next.pc⟩

end Disk

end Vaulton.SharedDisk
