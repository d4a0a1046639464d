import Vaulton.Lib.WorkList
import Vaulton.Transfer

/-! The walks over a directory of the server's disk: `dir_size`, which measures a local
point, and `reject_symlinks_under`, which guards backups and restores (`ipc/src/utils.rs`).
Both keep a stack of directories that are still to be read. -/

namespace Vaulton.DiskWalk
open Vaulton.Lib Vaulton.Config Vaulton.Paths Vaulton.Transfer

/-! ### What the disk answers -/

inductive ErrorKind where
  | notFound
  | permissionDenied
  | invalidData
  | other
  deriving DecidableEq, Repr

/-- `std::io::Error`. -/
structure DiskError where
  kind : ErrorKind
  message : String
  deriving DecidableEq, Repr

/-- `std::fs::FileType`. -/
inductive FileType where
  | dir
  | file
  | symlink
  | other
  deriving DecidableEq, Repr

/-- `std::fs::DirEntry`. It is asked about itself, not about what a symlink points to. -/
structure DirEntry where
  fileName : Text
  fileType : Except DiskError FileType
  /-- `len` of its metadata. -/
  len : Except DiskError Nat

/-- What `read_dir` yields for a path. -/
abbrev Disk := Text → Except DiskError (List (Except DiskError DirEntry))

/-! ### The walks -/

/-- `NotFound` is passed over, as what was there may be gone by now. Any other error is
returned. -/
def unlessMissing {α σ : Type} (answer : Except DiskError α) (state : σ) (use : α → Except DiskError σ) : Except DiskError σ :=
  match answer with
  | .ok value => use value
  | .error error => if error.kind = .notFound then .ok state else .error error

section Walk

variable {σ : Type} (visit : DirEntry → FileType → σ → Except DiskError σ) (disk : Disk)

/-- The directories to be read and what the walk has found. -/
abbrev Walk (σ : Type) := WorkList Text σ

/-- The loop over the entries of a directory. -/
def walkEntries (dir : Text) : List (Except DiskError DirEntry) → Walk σ → Except DiskError (Walk σ)
  | [], walk => .ok walk
  | entry :: later, walk => do
    let walk ← unlessMissing entry walk fun entry =>
      unlessMissing entry.fileType walk fun fileType => do
        let state ← visit entry fileType walk.state
        return { stack := if fileType = .dir then push dir entry.fileName :: walk.stack else walk.stack, state }
    walkEntries dir later walk

def walkDir (dir : Text) (walk : Walk σ) : Except DiskError (Walk σ) :=
  unlessMissing (disk dir) walk fun entries => walkEntries visit dir entries walk

/-- `while let Some(dir) = stack.pop()`. -/
def walkNext : Walk σ → Iteration (Walk σ) (Except DiskError σ) := popNext (walkDir visit disk)

def walkFrom (fuel : Nat) (root : Text) (state : σ) : Option (Except DiskError σ) :=
  runLoop (walkNext visit disk) fuel ⟨[root], state⟩

end Walk

def rejectSymlink (root : Text) (_ : DirEntry) (fileType : FileType) (_ : Unit) : Except DiskError Unit :=
  if fileType = .symlink then .error ⟨.permissionDenied, s!"symlink is not allowed under '{root.str}'"⟩ else .ok ()

def rejectSymlinksUnder (disk : Disk) (fuel : Nat) (root : Text) : Option (Except DiskError Unit) :=
  walkFrom (rejectSymlink root) disk fuel root ()

def checkedAdd (total len : Nat) : Except DiskError Nat :=
  if u64Max < total + len then .error ⟨.invalidData, "directory size exceeds u64::MAX"⟩ else .ok (total + len)

def addFile (entry : DirEntry) (fileType : FileType) (total : Nat) : Except DiskError Nat :=
  if fileType = .file then unlessMissing entry.len total (checkedAdd total) else .ok total

def dirSize (disk : Disk) (fuel : Nat) (root : Text) : Option (Except DiskError Nat) :=
  walkFrom addFile disk fuel root 0

/-! ### Directory trees

What the walks are for: a directory is the list of what it holds. -/

inductive FsItem where
  | file (name : Text) (len : Nat)
  | symlink (name : Text)
  | dir (name : Text) (items : List FsItem)

mutual
/-- The regular files, at any depth. -/
def FsItem.size : FsItem → Nat
  | .file _ len => len
  | .symlink _ => 0
  | .dir _ items => treeSize items

def treeSize : List FsItem → Nat
  | [] => 0
  | item :: later => item.size + treeSize later
end

/-- The item lies in the directory or in a directory inside it. -/
inductive AtAnyDepth (item : FsItem) : List FsItem → Prop where
  | here {items} (member : item ∈ items) : AtAnyDepth item items
  | deeper {items name inside} (member : .dir name inside ∈ items) (below : AtAnyDepth item inside) : AtAnyDepth item items

mutual
def FsItem.directories (dir : Text) : FsItem → List (Text × List FsItem)
  | .file _ _ => []
  | .symlink _ => []
  | .dir name items => (push dir name, items) :: directoriesIn (push dir name) items

/-- The real directories inside a directory, at any depth. -/
def directoriesIn (dir : Text) : List FsItem → List (Text × List FsItem)
  | [] => []
  | item :: later => item.directories dir ++ directoriesIn dir later
end

/-- The directory itself and those inside it. -/
def directories (dir : Text × List FsItem) : List (Text × List FsItem) := dir :: directoriesIn dir.1 dir.2

/-- How `read_dir` shows an item. Only of a file it matters what the metadata says. -/
def Describes (entry : DirEntry) : FsItem → Prop
  | .file name len => entry.fileName = name ∧ entry.fileType = .ok .file ∧ entry.len = .ok len
  | .symlink name => entry.fileName = name ∧ entry.fileType = .ok .symlink
  | .dir name _ => entry.fileName = name ∧ entry.fileType = .ok .dir

/-- The tree is on the disk. Every directory is read in an order of its own, and nothing is
said of any other path, such as those that lead through a symlink. -/
inductive OnDisk (disk : Disk) : Text × List FsItem → Prop where
  | intro {dir items order entries} (read : disk dir = .ok (entries.map .ok)) (described : List.Forall₂ Describes entries order)
      (same : order.Perm items) (inside : ∀ name inner, .dir name inner ∈ items → OnDisk disk (push dir name, inner)) :
      OnDisk disk (dir, items)

end Vaulton.DiskWalk
