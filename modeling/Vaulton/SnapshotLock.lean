import Vaulton.Config
import Vaulton.Retention

/-! Locking a snapshot (`set_snapshot_lock` of `ipc/src/server.rs`) beside retention passes
and Forget jobs on the same repository. Snapshot files are content-addressed: locking saves
a changed copy under its own id and then removes the original. Every file is encrypted with
a random nonce, so the same fields saved again have another id. -/

namespace Vaulton.SnapshotLock
open Vaulton.Config Vaulton.Retention

/-! ### Snapshot files -/

/-- The content of a snapshot file as it is stored. `rest` are the fields that nobody here
looks at. -/
structure SnapshotFile where
  time : Int
  hostname : String
  label : String
  paths : List String
  tags : List String
  tree : Nat
  delete : DeleteOption
  dataAddedPacked : Option Nat
  blobs : List Nat
  rest : String
  nonce : Nat
  deriving DecidableEq, Repr

def SnapshotFile.isLocked (file : SnapshotFile) : Bool := file.delete == .never

def SnapshotFile.withLock (file : SnapshotFile) (locked : Bool) (nonce : Nat) : SnapshotFile :=
  { file with delete := if locked then .never else .notSet, nonce }

/-- The file as retention sees it. -/
def SnapshotFile.snapshot (hash : SnapshotFile → Nat) (file : SnapshotFile) : Snapshot where
  id := hash file
  time := file.time
  hostname := file.hostname
  label := file.label
  paths := file.paths
  delete := file.delete
  dataAddedPacked := file.dataAddedPacked
  blobs := file.blobs

/-- What `set_snapshot_lock` takes for the copy it has saved. -/
def isCopy (hash : SnapshotFile → Nat) (old : SnapshotFile) (wantLocked : Bool) (file : SnapshotFile) : Bool :=
  hash file ≠ hash old && file.tree == old.tree && file.time == old.time && file.hostname == old.hostname &&
    file.label == old.label && file.paths == old.paths && file.tags == old.tags && file.isLocked == wantLocked

structure LockRepo (hash : SnapshotFile → Nat) where
  files : List SnapshotFile
  blobs : List Nat
  distinct : (files.map hash).Nodup

variable {hash : SnapshotFile → Nat}

def LockRepo.repository (repo : LockRepo hash) : Repository where
  snapshots := repo.files.map (SnapshotFile.snapshot hash)
  blobs := repo.blobs
  distinct := by
    rw [List.map_map]
    exact repo.distinct

/-- `delete_snapshots`. -/
def LockRepo.deleteSnapshots (repo : LockRepo hash) (ids : List Nat) : LockRepo hash where
  files := repo.files.filter fun file => !ids.contains (hash file)
  blobs := repo.blobs
  distinct := repo.distinct.sublist (List.filter_sublist.map _)

/-- `save_snapshots` of one file. A file that is already there stays as it is. -/
def LockRepo.saveSnapshot (repo : LockRepo hash) (file : SnapshotFile) : LockRepo hash :=
  if present : hash file ∈ repo.files.map hash then repo
  else { repo with
    files := repo.files ++ [file]
    distinct := by
      rw [List.map_append, List.nodup_append]
      refine ⟨repo.distinct, by simp, ?_⟩
      intro id member other single same
      rw [List.map_singleton, List.mem_singleton] at single
      exact present (single ▸ same ▸ member) }

/-- The files that a retention pass has left. -/
def LockRepo.retain (repo : LockRepo hash) (left : Repository) : LockRepo hash where
  files := repo.files.filter fun file => (left.snapshots.map Snapshot.id).contains (hash file)
  blobs := left.blobs
  distinct := repo.distinct.sublist (List.filter_sublist.map _)

/-! ### One call, one job -/

structure LockReply where
  snapshotId : Nat
  previousSnapshotId : Nat
  locked : Bool
  deriving DecidableEq, Repr

inductive LockPc where
  /-- Waits for the operation lock of the point. -/
  | acquire
  | openRepo
  | list
  | save (old : SnapshotFile)
  | find (old : SnapshotFile)
  | delete (old : SnapshotFile) (newId : Nat)
  | done (result : Except Status LockReply)

/-- A save also draws a nonce. -/
structure LockAnswer extends Answer where
  nonce : Nat
  deriving DecidableEq, Repr

def internal (what : String) : Status := ⟨.internal, s!"{what}: backend error"⟩

/-- The steps under the operation lock. A failed save or deletion may have been carried
out all the same. -/
def setLockStep (wanted : Nat) (wantLocked : Bool) (repo : LockRepo hash) (answer : LockAnswer) :
    LockPc → Option (LockRepo hash × LockPc)
  | .acquire => none
  | .openRepo =>
    if answer.fails then some (repo, .done (.error (internal "failed to open repository"))) else some (repo, .list)
  | .list =>
    if answer.fails then some (repo, .done (.error (internal "snapshot listing failed")))
    else
      match repo.files.find? fun file => hash file = wanted with
      | none => some (repo, .done (.error ⟨.notFound, "snapshot not found"⟩))
      | some old =>
        if old.isLocked = wantLocked then some (repo, .done (.ok ⟨hash old, hash old, old.isLocked⟩))
        else some (repo, .save old)
  | .save old =>
    let copy := old.withLock wantLocked answer.nonce
    if answer.fails then
      some (if answer.partly.contains (hash copy) then repo.saveSnapshot copy else repo,
        .done (.error (internal "saving the snapshot failed")))
    else some (repo.saveSnapshot copy, .find old)
  | .find old =>
    if answer.fails then some (repo, .done (.error (internal "snapshot listing failed")))
    else
      match repo.files.find? (isCopy hash old wantLocked) with
      | none => some (repo, .done (.error ⟨.internal, "the updated snapshot could not be found"⟩))
      | some file => some (repo, .delete old (hash file))
  | .delete old newId =>
    if answer.fails then
      some (repo.deleteSnapshots ([hash old].filter answer.partly.contains),
        .done (.error (internal "removing the original snapshot failed")))
    else some (repo.deleteSnapshots [hash old], .done (.ok ⟨newId, hash old, wantLocked⟩))
  | .done _ => none

inductive ForgetPc where
  | openRepo
  | check
  | delete
  | done (result : Outcome Unit)
  deriving DecidableEq

/-- The locked snapshots among the ones to forget. -/
def lockedAmong (repo : LockRepo hash) (snapIds : List Nat) : List Nat :=
  (repo.files.filter fun file => file.isLocked && snapIds.contains (hash file)).map hash

def refusal (locked : List Nat) : Outcome Unit :=
  let ids := ", ".intercalate (locked.map toString)
  .err s!"refusing to delete locked snapshot(s): {ids}. Unlock them first."

/-- The body of a Forget job. -/
def forgetStep (snapIds : List Nat) (includeLocked : Bool) (repo : LockRepo hash) (answer : Answer) :
    ForgetPc → Option (LockRepo hash × ForgetPc)
  | .openRepo =>
    if answer.fails then some (repo, .done backendError)
    else some (repo, if includeLocked then .delete else .check)
  | .check =>
    if answer.fails then some (repo, .done backendError)
    else if lockedAmong repo snapIds ≠ [] then some (repo, .done (refusal (lockedAmong repo snapIds)))
    else some (repo, .delete)
  | .delete =>
    if answer.fails then some (repo.deleteSnapshots (snapIds.filter answer.partly.contains), .done backendError)
    else some (repo.deleteSnapshots snapIds, .done (.ok ()))
  | .done _ => none

/-! ### Any number of them on one repository -/

inductive Task where
  | setSnapshotLock (point : Uuid) (wanted : Nat) (locked : Bool)
  | retention (run : RetentionRun)
  | forget (snapIds : List Nat) (includeLocked : Bool)
  deriving DecidableEq

inductive TaskPc where
  | lock (pc : LockPc)
  | retention (report : Report) (pc : RetentionPc)
  | forget (pc : ForgetPc)

def Task.start : Task → TaskPc
  | .setSnapshotLock _ _ _ => .lock .acquire
  | .retention _ => .retention {} .begin
  | .forget _ _ => .forget .openRepo

structure LockState (hash : SnapshotFile → Nat) (ι : Type) where
  repo : LockRepo hash
  /-- `repo_op_locks`: who holds the lock of a point. -/
  opLocks : Uuid → Option ι
  pcs : ι → TaskPc

variable {ι : Type} [DecidableEq ι]

def lockStart (tasks : ι → Task) (repo : LockRepo hash) : LockState hash ι :=
  ⟨repo, fun _ => none, fun call => (tasks call).start⟩

/-- The operation lock is held until the call is done. -/
def LockPc.holding (pc : LockPc) (call : ι) : Option ι :=
  match pc with
  | .done _ => none
  | _ => some call

def lockStep (rustic : Rustic) (tasks : ι → Task) (state : LockState hash ι) (event : ι × LockAnswer) :
    Option (LockState hash ι) :=
  let (call, answer) := event
  match tasks call, state.pcs call with
  | .setSnapshotLock point _ _, .lock .acquire =>
    match state.opLocks point with
    | some _ => none
    | none => some { state with
        opLocks := Function.update state.opLocks point (some call)
        pcs := Function.update state.pcs call (.lock .openRepo) }
  | .setSnapshotLock point wanted locked, .lock pc =>
    (setLockStep wanted locked state.repo answer pc).map fun (repo, pc) =>
      ⟨repo, Function.update state.opLocks point (pc.holding call), Function.update state.pcs call (.lock pc)⟩
  | .retention run, .retention report pc =>
    (retentionStep rustic run ⟨state.repo.repository, report, pc⟩ answer.toAnswer).map fun next =>
      { state with
        repo := state.repo.retain next.repo
        pcs := Function.update state.pcs call (.retention next.report next.pc) }
  | .forget snapIds includeLocked, .forget pc =>
    (forgetStep snapIds includeLocked state.repo answer.toAnswer pc).map fun (repo, pc) =>
      { state with repo, pcs := Function.update state.pcs call (.forget pc) }
  | _, _ => none

end Vaulton.SnapshotLock
