import Vaulton.Config
import Vaulton.Lib.Machine

/-! The cache of snapshot listings (`snap_get_all` of `ipc/src/server.rs`) beside the
requests that invalidate it (`backup`, `forget`, `apply_retention` and
`set_snapshot_lock`). A request is cut at its accesses to the cache and the repository,
which jobs and other programs change at any time. -/

namespace Vaulton.SnapshotCache
open Vaulton.Config

/-- `time_to_live` in milliseconds. -/
def snapshotTtl : Nat := 5000

structure CachedListing (σ : Type) where
  output : σ
  /-- When it was inserted. -/
  inserted : Nat
  deriving DecidableEq

inductive ReadPc (σ : Type) where
  | absent
  /-- About to find the user, the point and its source. -/
  | resolve
  | lookup
  | getRepo
  | list
  | insert (output : σ)
  | returned (answer : Except Status σ)
  deriving DecidableEq

/-- A request that starts a job or changes a lock, and then invalidates the listing. -/
inductive WriterPc where
  | absent
  | working
  | invalidate
  | returned (ok : Bool)
  deriving DecidableEq

structure ListingState (σ κ ι ω : Type) where
  /-- The snapshots as `get_all_snapshots` lists them. -/
  repository : σ
  snapshotCache : κ → Option (CachedListing σ)
  now : Nat
  reads : ι → ReadPc σ
  writers : ω → WriterPc

/-- What happens outside in one step of a read. -/
structure ReadAnswer where
  /-- The user or the point is unknown. -/
  refused : Option Status := none
  failure : Option String := none
  /-- The task that lists panics. -/
  joinError : Option String := none

inductive ListingEvent (σ κ ι ω : Type) where
  | read (call : ι) (answer : ReadAnswer)
  | write (call : ω) (fails : Bool)
  /-- A job, a step of SetSnapshotLock or another program. -/
  | change (repository : σ)
  | elapse (milliseconds : Nat)
  /-- The cache is full. -/
  | evict (key : κ)

variable {σ κ ι ω : Type}

def listingStart (repository : σ) : ListingState σ κ ι ω where
  repository := repository
  snapshotCache := fun _ => none
  now := 0
  reads := fun _ => .absent
  writers := fun _ => .absent

/-- What `get` returns: entries that are too old are gone. -/
def ListingState.cached (state : ListingState σ κ ι ω) (key : κ) : Option σ :=
  match state.snapshotCache key with
  | some entry => if state.now < entry.inserted + snapshotTtl then some entry.output else none
  | none => none

def ListingState.goto [DecidableEq ι] (state : ListingState σ κ ι ω) (call : ι) (pc : ReadPc σ) : ListingState σ κ ι ω :=
  { state with reads := Function.update state.reads call pc }

def ListingState.gotoWriter [DecidableEq ω] (state : ListingState σ κ ι ω) (call : ω) (pc : WriterPc) : ListingState σ κ ι ω :=
  { state with writers := Function.update state.writers call pc }

def ListingState.setCache [DecidableEq κ] (state : ListingState σ κ ι ω) (key : κ) (entry : Option (CachedListing σ)) :
    ListingState σ κ ι ω :=
  { state with snapshotCache := Function.update state.snapshotCache key entry }

@[simp] theorem goto_reads [DecidableEq ι] (state : ListingState σ κ ι ω) (call : ι) (pc : ReadPc σ) :
    (state.goto call pc).reads = Function.update state.reads call pc := rfl

@[simp] theorem goto_cache [DecidableEq ι] (state : ListingState σ κ ι ω) (call : ι) (pc : ReadPc σ) :
    (state.goto call pc).snapshotCache = state.snapshotCache := rfl

@[simp] theorem gotoWriter_reads [DecidableEq ω] (state : ListingState σ κ ι ω) (call : ω) (pc : WriterPc) :
    (state.gotoWriter call pc).reads = state.reads := rfl

@[simp] theorem gotoWriter_cache [DecidableEq ω] (state : ListingState σ κ ι ω) (call : ω) (pc : WriterPc) :
    (state.gotoWriter call pc).snapshotCache = state.snapshotCache := rfl

@[simp] theorem setCache_reads [DecidableEq κ] (state : ListingState σ κ ι ω) (key : κ) (entry : Option (CachedListing σ)) :
    (state.setCache key entry).reads = state.reads := rfl

@[simp] theorem setCache_cache [DecidableEq κ] (state : ListingState σ κ ι ω) (key : κ) (entry : Option (CachedListing σ)) :
    (state.setCache key entry).snapshotCache = Function.update state.snapshotCache key entry := rfl

variable [DecidableEq κ] [DecidableEq ι] [DecidableEq ω]

def snapGetAll (state : ListingState σ κ ι ω) (call : ι) (key : κ) (answer : ReadAnswer) :
    ReadPc σ → Option (ListingState σ κ ι ω)
  | .absent => some (state.goto call .resolve)
  | .resolve =>
    match answer.refused with
    | some error => some (state.goto call (.returned (.error error)))
    | none => some (state.goto call .lookup)
  | .lookup =>
    match state.cached key with
    | some output => some (state.goto call (.returned (.ok output)))
    | none => some (state.goto call .getRepo)
  | .getRepo =>
    match answer.failure with
    | some error => some (state.goto call (.returned (.error ⟨.internal, s!"failed to open repository: {error}"⟩)))
    | none => some (state.goto call .list)
  | .list =>
    match answer.joinError, answer.failure with
    | some error, _ => some (state.goto call (.returned (.error ⟨.internal, s!"snapshot listing task failed: {error}"⟩)))
    | none, some error => some (state.goto call (.returned (.error ⟨.internal, s!"snapshot listing failed: {error}"⟩)))
    | none, none => some (state.goto call (.insert state.repository))
  | .insert output =>
    some ((state.setCache key (some ⟨output, state.now⟩)).goto call (.returned (.ok output)))
  | .returned _ => none

/-- Only a request that has done its work invalidates. -/
def invalidating (state : ListingState σ κ ι ω) (call : ω) (key : κ) (fails : Bool) : WriterPc → Option (ListingState σ κ ι ω)
  | .absent => some (state.gotoWriter call .working)
  | .working => some (state.gotoWriter call (if fails then .returned false else .invalidate))
  | .invalidate => some ((state.setCache key none).gotoWriter call (.returned true))
  | .returned _ => none

def listingStep (keys : ι → κ) (writerKeys : ω → κ) (state : ListingState σ κ ι ω) :
    ListingEvent σ κ ι ω → Option (ListingState σ κ ι ω)
  | .read call answer => snapGetAll state call (keys call) answer (state.reads call)
  | .write call fails => invalidating state call (writerKeys call) fails (state.writers call)
  | .change repository => some { state with repository }
  | .elapse milliseconds => some { state with now := state.now + milliseconds }
  | .evict key => some (state.setCache key none)

end Vaulton.SnapshotCache
