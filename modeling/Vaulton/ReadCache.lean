import Vaulton.ReadHandles
import Vaulton.Transfer

/-! The cache of read handles beside everything that changes files of writable local points
(`vfs_read_file`, `vfs_touch_file`, `vfs_open_write`, `vfs_write_at`, `vfs_set_length`,
`vfs_close_write`, `vfs_remove_file`, `vfs_remove_dir` and completed transfers of
`ipc/src/server.rs`), one request after another. The disk is one tree whose files are
inodes; a descriptor holds an inode and so keeps its bytes. A key of the cache is a user
with a VFS path, and several keys may stand for one path of the disk. -/

namespace Vaulton.ReadCache
open Vaulton.Lib Vaulton.Config Vaulton.ReadHandles
open Vaulton.Transfer (Name Path Bytes FileTree)

/-- An inode is named by the request that made it and the path it was made at. -/
abbrev Inode := Nat × Path

structure CachedRead where
  node : Inode
  len : Nat
  deriving DecidableEq

structure OpenedWrite (χ : Type) where
  key : χ
  node : Inode
  append : Bool
  deriving DecidableEq

structure DiskState (χ η : Type) where
  tree : Tree Name Inode
  contents : Inode → Bytes
  readHandles : χ → Option CachedRead
  writeHandles : η → Option (OpenedWrite χ)
  /-- The number of the request. -/
  clock : Nat

/-- A server that has just started, on any disk. -/
def mountDisk {χ η : Type} (disk : FileTree) : DiskState χ η where
  tree := disk.mapFiles fun path _ => (0, path)
  contents := fun node =>
    match disk.node node.2 with
    | some (.file content) => content
    | _ => []
  readHandles := fun _ => none
  writeHandles := fun _ => none
  clock := 1

inductive Operation (χ η : Type) where
  | readFile (key : χ) (args : ReadArgs)
  | touchFile (key : χ)
  | openWrite (id : η) (key : χ) (overwrite append : Bool)
  | writeAt (id : η) (offset : Nat) (data : Bytes)
  | setLength (id : η) (length : Nat)
  | setLengthAt (key : χ) (length : Nat)
  | closeWrite (id : η)
  | removeFile (key : χ)
  | removeDir (key : χ)
  | transfer (source destination : χ) (copy : Bool)

structure DiskAnswer where
  /-- A full quota or an I/O error stops the request before it has changed anything; one that
  comes later is no different from success here, as only reads are answered. A removal
  that is stopped may have deleted some entries. -/
  refused : Bool := false
  /-- How many bytes of a write or a copy reach the file at a path, `none` for all. -/
  written : Path → Option Nat := fun _ => none
  /-- The entries that a refused removal, or the cleanup of a failed transfer, has deleted,
  a directory after what is in it. -/
  deleted : List Path := []
  /-- The storage writes a whole file beside the old one and renames it into place. -/
  atomic : Bool := false
  /-- Source and destination of a transfer are on one point, which knows how to rename. -/
  native : Bool := true

def DiskAnswer.cut (answer : DiskAnswer) (path : Path) (data : Bytes) : Bytes := ((answer.written path).map data.take).getD data

def noSuchFile : Status := ⟨.notFound, "No such file or directory (os error 2)"⟩

def displayPath (path : Path) : String := "/" ++ "/".intercalate (path.map fun name => name.val.str)

/-- `safe_join` inspects the path name by name and stops at the first one below a file. -/
def inspectFails (tree : Tree Name Inode) (path : Path) : Status :=
  let inspected := (path.inits.find? fun front => isFile (tree.node front.dropLast)).getD path
  ⟨.internal, s!"failed to inspect local path '{displayPath inspected}': Not a directory (os error 20)"⟩

def readsDirectory : Status := ⟨.failedPrecondition, "cannot read a directory as a file"⟩

section Requests

variable {χ η : Type} (place : χ → Path)

/-! ### Reads -/

section Reads

variable [DecidableEq χ]

def getReadHandle (state : DiskState χ η) (key : χ) : Except Status CachedRead × DiskState χ η :=
  match state.readHandles key with
  | some handle => (.ok handle, state)
  | none =>
    match state.tree.node (place key) with
    | none => (.error (if state.tree.blocked (place key).dropLast then inspectFails state.tree (place key) else noSuchFile), state)
    | some .dir => (.error readsDirectory, state)
    | some (.file node) =>
      let handle : CachedRead := ⟨node, (state.contents node).length⟩
      (.ok handle, { state with readHandles := Function.update state.readHandles key (some handle) })

def readFromHandle (contents : Bytes) (handle : CachedRead) (offset length : Nat) : Bytes :=
  if offset ≥ handle.len ∨ length = 0 then [] else readBytes contents offset (min length (handle.len - offset))

def vfsReadFile (state : DiskState χ η) (key : χ) (args : ReadArgs) : Except Status Bytes × DiskState χ η :=
  if args.length > MAX_READ then (.error lengthExceeded, state)
  else
    match getReadHandle place state key with
    | (.error error, next) => (.error error, next)
    | (.ok handle, next) =>
      (readRange args handle.len |>.map fun range => readFromHandle (next.contents handle.node) handle range.1 range.2, next)

end Reads

/-! ### Changes -/

def DiskState.setContents (state : DiskState χ η) (node : Inode) (content : Bytes) : DiskState χ η :=
  { state with contents := Function.update state.contents node content }

/-- A new empty file, with the directories above it. -/
def createFile (state : DiskState χ η) (path : Path) : Option (Inode × DiskState χ η) :=
  (state.tree.putFile path (state.clock, path)).map fun tree =>
    ((state.clock, path), { state with tree, contents := Function.update state.contents (state.clock, path) [] })

def vfsTouchFile (state : DiskState χ η) (key : χ) (atomic : Bool) : DiskState χ η :=
  match state.tree.node (place key) with
  | some .dir => state
  | some (.file node) =>
    if atomic then ((createFile state (place key)).map Prod.snd).getD state else state.setContents node []
  | none => ((createFile state (place key)).map Prod.snd).getD state

def deleteEntries (tree : Tree Name Inode) (entries : List Path) : Tree Name Inode := entries.foldl Tree.remove tree

/-- The entries that `remove_any` takes away: all of them, or those it had come to. -/
def removedEntries (path : Path) (answer : DiskAnswer) : List Path :=
  if answer.refused then answer.deleted.filter fun entry => path <+: entry else [path]

/-- `remove_any`, for a file and for a directory. -/
def removeAny (state : DiskState χ η) (key : χ) (answer : DiskAnswer) : DiskState χ η :=
  match state.tree.node (place key) with
  | none => state
  | some _ => { state with tree := deleteEntries state.tree (removedEntries (place key) answer) }

/-- The bytes of the files that a copy has made. -/
def copiedContents (state : DiskState χ η) (answer : DiskAnswer) (source target : Path) (node : Inode) : Bytes :=
  if node.1 = state.clock ∧ target <+: node.2 then
    match state.tree.node (source ++ node.2.drop target.length) with
    | some (.file old) => answer.cut node.2 (state.contents old)
    | _ => []
  else state.contents node

/-- A transfer whose job has ended. Within a point a file moves by a rename and a directory
cannot be renamed; everything else is copied. A directory that is not empty fails at the
end of its listing, so its copy is cleaned up. The deletion of a moved source is reached for
a file and for an empty directory, and for these it does nothing. -/
def vfsTransfer (state : DiskState χ η) (source destination : χ) (copy : Bool) (answer : DiskAnswer) : DiskState χ η :=
  if answer.native ∧ ¬copy then
    match state.tree.node (place source), state.tree.node (place destination),
        state.tree.rename (place source) (place destination) with
    | some (.file _), none, some tree => { state with tree }
    | _, _, _ => state
  else
    match state.tree.graft (place source) (place destination) fun path _ => (state.clock, path) with
    | none => state
    | some tree => { state with
        tree := deleteEntries tree (answer.deleted.filter fun entry => place destination <+: entry)
        contents := copiedContents state answer (place source) (place destination) }

variable [DecidableEq χ] [DecidableEq η]

def invalidateReadHandle (state : DiskState χ η) (key : χ) : DiskState χ η :=
  { state with readHandles := Function.update state.readHandles key none }

/-- The cached reader goes first, whatever becomes of the request. -/
def vfsOpenWrite (state : DiskState χ η) (id : η) (key : χ) (overwrite append refused : Bool) : DiskState χ η :=
  let path := place key
  let state := invalidateReadHandle state key
  match state.tree.makeDirs path.dropLast with
  | none => state
  | some tree =>
    let state := { state with tree }
    if refused then state
    else
      match tree.node path with
      | some .dir => state
      | some (.file node) =>
        let opened := if overwrite then state.setContents node [] else state
        { opened with writeHandles := Function.update state.writeHandles id (some ⟨key, node, append⟩) }
      | none =>
        match createFile state path with
        | none => state
        | some (node, created) =>
          { created with writeHandles := Function.update state.writeHandles id (some ⟨key, node, append⟩) }

/-- WriteAt and SetLength through a handle invalidate the path the handle was opened with. -/
def writeThrough (state : DiskState χ η) (id : η) (args : WriteArgs) (refused : Bool) : DiskState χ η :=
  match state.writeHandles id with
  | none => state
  | some handle =>
    let state := invalidateReadHandle state handle.key
    if refused then state else state.setContents handle.node (args.change (state.contents handle.node))

/-- The write that reaches the file. -/
def writeArgs (state : DiskState χ η) (id : η) (offset : Nat) (data : Bytes) (answer : DiskAnswer) : WriteArgs :=
  let append := ((state.writeHandles id).map OpenedWrite.append).getD false
  .writeAt offset (((state.writeHandles id).map fun handle => answer.cut (place handle.key) data).getD data) append

def vfsWriteAt (state : DiskState χ η) (id : η) (offset : Nat) (data : Bytes) (answer : DiskAnswer) : DiskState χ η :=
  writeThrough state id (writeArgs place state id offset data answer) answer.refused

def vfsSetLength (state : DiskState χ η) (id : η) (length : Nat) (refused : Bool) : DiskState χ η :=
  writeThrough state id (.setLength length) refused

def vfsSetLengthAt (state : DiskState χ η) (key : χ) (length : Nat) (refused : Bool) : DiskState χ η :=
  let state := invalidateReadHandle state key
  match state.tree.node (place key) with
  | some (.file node) => if refused then state else state.setContents node (setLen (state.contents node) length)
  | _ => state

def operate (state : DiskState χ η) (answer : DiskAnswer) : Operation χ η → DiskState χ η
  | .readFile key args => (vfsReadFile place state key args).2
  | .touchFile key => if answer.refused then state else vfsTouchFile place state key answer.atomic
  | .openWrite id key overwrite append => vfsOpenWrite place state id key overwrite append answer.refused
  | .writeAt id offset data => vfsWriteAt place state id offset data answer
  | .setLength id length => vfsSetLength state id length answer.refused
  | .setLengthAt key length => vfsSetLengthAt place state key length answer.refused
  | .closeWrite id => { state with writeHandles := Function.update state.writeHandles id none }
  | .removeFile key | .removeDir key => removeAny place state key answer
  | .transfer source destination copy =>
    if answer.refused then state else vfsTransfer place state source destination copy answer

def diskStep (state : DiskState χ η) (event : Operation χ η × DiskAnswer) : Option (DiskState χ η) :=
  some { operate place state event.2 event.1 with clock := state.clock + 1 }

end Requests

end Vaulton.ReadCache
