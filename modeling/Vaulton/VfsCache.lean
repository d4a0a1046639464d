import Vaulton.Quota

/-! The operator caches of one user (`StorageManager::get_vfs`, `build_vfs`,
`refresh_degraded` and `invalidate_vfs`) beside the stored user record and the SetVfs
calls that replace it. A cached operator is represented by the record it was built
from. Every access to the database, a cache, the generation or the build lock is a step. -/

namespace Vaulton.VfsCache
open Vaulton.Quota

variable {ρ ι κ : Type} [DecidableEq ρ] [DecidableEq ι] [DecidableEq κ]

/-- How `create_for_vfs` ends. -/
inductive Created where
  | failed
  | healthy
  | degraded
  deriving DecidableEq, Repr

/-- Where `build_vfs` stands, inside `spawn_blocking`. -/
inductive BuildPc where
  | lock
  /-- `vfs_ops` is asked again under the build lock. -/
  | check
  | readGeneration
  | create (generation : Nat)
  | recheck (generation : Nat) (degraded : Bool)
  /-- The other cache is invalidated before the operator is inserted. -/
  | invalidateOther (degraded : Bool)
  | insert (degraded : Bool)
  | unlock
  deriving DecidableEq, Repr

/-- A task is a request, or the background refresh a request spawned. -/
inductive TaskPc (ρ : Type) where
  | unborn
  /-- A request about to read the user record. -/
  | readUser
  | lookup (user : ρ)
  | lookupDegraded (user : ρ)
  | refreshDegraded (user : ρ)
  | build (user : ρ) (pc : BuildPc) (background : Bool)
  /-- The refresh is over and leaves `refreshing`. -/
  | refreshed
  | done
  deriving DecidableEq, Repr

inductive SetVfsPc (ρ : Type) where
  | readUsers
  | setUsers (old : Option ρ)
  /-- `invalidate_vfs`: the generation, then both caches. -/
  | bump
  | clearVfsOps
  | clearDegradedOps
  | done
  deriving DecidableEq, Repr

structure CacheState (ρ ι κ : Type) where
  /-- The user's row, `none` when the user is not configured. -/
  stored : Option ρ
  generation : Nat
  vfsOps : Option ρ
  degradedOps : Option ρ
  refreshing : Bool
  buildLock : Option ι
  tasks : ι → TaskPc ρ
  setVfs : κ → SetVfsPc ρ

/-- What the environment decides in one step of a task: the identity of a spawned task
and how the probes of the mount points end. -/
structure TaskChoice (ι : Type) where
  child : ι
  created : Created
  deriving DecidableEq, Repr

inductive CacheEvent (ι κ : Type) where
  | arrive (task : ι)
  | advance (task : ι) (choice : TaskChoice ι)
  | setVfs (call : κ) (fails : Bool)
  deriving DecidableEq

def cacheStart (stored : Option ρ) : CacheState ρ ι κ where
  stored := stored
  generation := 0
  vfsOps := none
  degradedOps := none
  refreshing := false
  buildLock := none
  tasks := fun _ => .unborn
  setVfs := fun _ => .readUsers

def CacheState.goto (state : CacheState ρ ι κ) (task : ι) (pc : TaskPc ρ) : CacheState ρ ι κ :=
  { state with tasks := Function.update state.tasks task pc }

/-- What follows `build_vfs`: a request returns, a refresh first leaves `refreshing`. -/
def afterBuild : Bool → TaskPc ρ
  | true => .refreshed
  | false => .done

/-- One step of `build_vfs` for a task holding the record `user`. -/
def buildStep (state : CacheState ρ ι κ) (task : ι) (user : ρ) (background : Bool) (created : Created) :
    BuildPc → Option (CacheState ρ ι κ)
  | .lock =>
    match state.buildLock with
    | none => some ({ state with buildLock := some task }.goto task (.build user .check background))
    | some _ => none
  | .check =>
    match state.vfsOps with
    | some _ => some (state.goto task (.build user .unlock background))
    | none => some (state.goto task (.build user .readGeneration background))
  | .readGeneration => some (state.goto task (.build user (.create state.generation) background))
  | .create generation =>
    match created with
    | .failed => some (state.goto task (.build user .unlock background))
    | .healthy => some (state.goto task (.build user (.recheck generation false) background))
    | .degraded => some (state.goto task (.build user (.recheck generation true) background))
  | .recheck generation degraded =>
    if generation ≠ state.generation then some (state.goto task (.build user .unlock background))
    else some (state.goto task (.build user (.invalidateOther degraded) background))
  | .invalidateOther degraded =>
    if degraded then some ({ state with vfsOps := none }.goto task (.build user (.insert true) background))
    else some ({ state with degradedOps := none }.goto task (.build user (.insert false) background))
  | .insert degraded =>
    if degraded then some ({ state with degradedOps := some user }.goto task (.build user .unlock background))
    else some ({ state with vfsOps := some user }.goto task (.build user .unlock background))
  | .unlock => some ({ state with buildLock := none }.goto task (afterBuild background))

/-- One step of a request (`get_operator`, then `get_vfs`) or of a background refresh. -/
def taskStep (state : CacheState ρ ι κ) (task : ι) (choice : TaskChoice ι) : TaskPc ρ → Option (CacheState ρ ι κ)
  | .unborn => none
  | .readUser =>
    match state.stored with
    | none => some (state.goto task .done)
    | some user => some (state.goto task (.lookup user))
  | .lookup user =>
    match state.vfsOps with
    | some _ => some (state.goto task .done)
    | none => some (state.goto task (.lookupDegraded user))
  | .lookupDegraded user =>
    match state.degradedOps with
    | some _ => some (state.goto task (.refreshDegraded user))
    | none => some (state.goto task (.build user .lock false))
  | .refreshDegraded user =>
    if state.refreshing then some (state.goto task .done)
    else if state.tasks choice.child = .unborn then
      some (({ state with refreshing := true }.goto task .done).goto choice.child (.build user .lock true))
    else none
  | .build user pc background => buildStep state task user background choice.created pc
  | .refreshed => some ({ state with refreshing := false }.goto task .done)
  | .done => none

/-- SetVfs invalidates a user it found stored and that it changes or removes. -/
def userChanged (old new : Option ρ) : Bool := old.isSome && decide (new ≠ old)

/-- One step of a SetVfs call that stores `new` for the user. -/
def setVfsStep (state : CacheState ρ ι κ) (call : κ) (new : Option ρ) (fails : Bool) :
    SetVfsPc ρ → Option (CacheState ρ ι κ)
  | .readUsers => some { state with setVfs := Function.update state.setVfs call (.setUsers state.stored) }
  | .setUsers old =>
    if fails then some { state with setVfs := Function.update state.setVfs call .done }
    else some { state with
      stored := new
      setVfs := Function.update state.setVfs call (if userChanged old new then .bump else .done) }
  | .bump => some { state with
      generation := saturatingAdd state.generation 1
      setVfs := Function.update state.setVfs call .clearVfsOps }
  | .clearVfsOps => some { state with
      vfsOps := none
      setVfs := Function.update state.setVfs call .clearDegradedOps }
  | .clearDegradedOps => some { state with
      degradedOps := none
      setVfs := Function.update state.setVfs call .done }
  | .done => none

def cacheStep (records : κ → Option ρ) (state : CacheState ρ ι κ) : CacheEvent ι κ → Option (CacheState ρ ι κ)
  | .arrive task =>
    match state.tasks task with
    | .unborn => some (state.goto task .readUser)
    | _ => none
  | .advance task choice => taskStep state task choice (state.tasks task)
  | .setVfs call fails => setVfsStep state call (records call) fails (state.setVfs call)

end Vaulton.VfsCache
