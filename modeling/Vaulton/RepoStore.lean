import Vaulton.Lib.SingleFlight
import Vaulton.Reconfiguration
import Vaulton.Transfer

/-! Opening and creating repositories (`get_repo`, `get_raw_repo`, `prepare_repo_unlocked`,
`repo_exists`, the repository branch of `build_mount` and `create_for_job` of
`ipc/src/store.rs`). A call is cut at the accesses to a cache, to the lock of its source
and to the storage. A handle is the number of the `open` that returned it. -/

namespace Vaulton.RepoStore
open Vaulton.Lib Vaulton.Reconfiguration
open Vaulton.Transfer (Failure)

inductive VfsError where
  | storage (message : String)
  | openDal (message : String)
  | internal (message : String)
  deriving DecidableEq

/-- Who opens a repository. -/
inductive Caller where
  | getRepo (src : RepoSource)
  /-- Repository points that are read-only are never created implicitly. -/
  | buildMount (src : RepoSource) (readOnly : Bool)
  /-- A job brings an operator of its own and takes no lock. -/
  | createForJob (src : RepoSource) (allowInit : Bool)
  deriving DecidableEq

def Caller.src : Caller → RepoSource
  | .getRepo src | .buildMount src _ | .createForJob src _ => src

def Caller.allowInit : Caller → Bool
  | .getRepo _ => false
  | .buildMount _ readOnly => !readOnly
  | .createForJob _ allowInit => allowInit

/-- The key of the lock in `repo_locks`. -/
def Caller.lockKey : Caller → Option RepoSource
  | .getRepo src | .buildMount src _ => some src
  | .createForJob _ _ => none

def Caller.missingError : Caller → VfsError
  | .getRepo _ | .buildMount _ _ => .storage "repository does not exist (and this point is read-only)"
  | .createForJob _ _ => .storage "repository does not exist"

def Caller.poisonedError : Caller → VfsError
  | .buildMount _ _ => .internal "repository VFS lock poisoned"
  | _ => .storage "repository open lock poisoned"

def Caller.panicError : Caller → VfsError
  | .buildMount _ _ => .internal "point probe thread panicked"
  | _ => .storage "spawn_blocking panicked"

/-- A mount is opened by OpenDAL's rustic service, anything else by rustic itself. -/
def Caller.openError : Caller → String → VfsError
  | .buildMount _ _, message => .openDal message
  | _, message => .storage message

inductive RepoPc where
  | absent
  | lookup
  | lock
  /-- The cache is asked again under the lock. -/
  | check
  | probe
  | init
  | opening
  | insert (handle : Nat)
  | unlock (result : Except VfsError Nat)
  | returned (result : Except VfsError Nat)
  deriving DecidableEq

/-- The way out, through the lock if there is one. -/
def Caller.exit (caller : Caller) (result : Except VfsError Nat) : RepoPc :=
  match caller.lockKey with
  | some _ => .unlock result
  | none => .returned result

/-- A handle that was just opened: only a caller with a lock caches it. -/
def Caller.keep (caller : Caller) (handle : Nat) : RepoPc :=
  match caller.lockKey with
  | some _ => .insert handle
  | none => .returned (.ok handle)

/-- What the storage answers in one step. -/
structure Answer where
  /-- `Operator::via_iter` refuses the options of the storage. -/
  invalid : Bool := false
  /-- The probe fails, and not because the file is missing. -/
  failure : Option Failure := none
  /-- Why setting up the backend, `init`, `open` or the rustic service fails. -/
  error : Option String := none
  /-- An `init` that fails leaves the repository behind. -/
  left : Bool := false
  panics : Bool := false

structure RepoState (Λ ι : Type) where
  /-- The locations whose `config` file exists. -/
  stored : Λ → Bool
  repos : RepoSource → Option Nat
  repoVfsOps : RepoSource → Option Nat
  locks : RepoSource → Holder ι
  /-- How many handles were opened. -/
  opened : Nat
  calls : ι → RepoPc

inductive RepoEvent (ι : Type) where
  | call (call : ι)
  | advance (call : ι) (answer : Answer)
  /-- The entry is invalidated or expires. -/
  | removeRepo (src : RepoSource)
  | removeVfsOp (src : RepoSource)

variable {Λ ι : Type}

def repoStart (stored : Λ → Bool) : RepoState Λ ι where
  stored := stored
  repos := fun _ => none
  repoVfsOps := fun _ => none
  locks := fun _ => .free
  opened := 0
  calls := fun _ => .absent

/-- `repo_exists`: only a missing file means that there is no repository. -/
def repoExists (stored : Bool) : Option Failure → Except String Bool
  | some failure => .error s!"repository probe failed: {failure.1.message}"
  | none => .ok stored

def RepoState.cached (state : RepoState Λ ι) : Caller → Option Nat
  | .getRepo src => state.repos src
  | .buildMount src _ => state.repoVfsOps src
  | .createForJob _ _ => none

def RepoState.store (state : RepoState Λ ι) (handle : Nat) : Caller → RepoState Λ ι
  | .getRepo src => { state with repos := Function.update state.repos src (some handle) }
  | .buildMount src _ => { state with repoVfsOps := Function.update state.repoVfsOps src (some handle) }
  | .createForJob _ _ => state

@[simp] theorem store_calls (state : RepoState Λ ι) (handle : Nat) (caller : Caller) :
    (state.store handle caller).calls = state.calls := by cases caller <;> rfl

@[simp] theorem store_locks (state : RepoState Λ ι) (handle : Nat) (caller : Caller) :
    (state.store handle caller).locks = state.locks := by cases caller <;> rfl

@[simp] theorem store_stored (state : RepoState Λ ι) (handle : Nat) (caller : Caller) :
    (state.store handle caller).stored = state.stored := by cases caller <;> rfl

def RepoState.setLock (state : RepoState Λ ι) (holder : Holder ι) : Option RepoSource → RepoState Λ ι
  | some src => { state with locks := Function.update state.locks src holder }
  | none => state

@[simp] theorem setLock_calls (state : RepoState Λ ι) (holder : Holder ι) (key : Option RepoSource) :
    (state.setLock holder key).calls = state.calls := by cases key <;> rfl

@[simp] theorem setLock_stored (state : RepoState Λ ι) (holder : Holder ι) (key : Option RepoSource) :
    (state.setLock holder key).stored = state.stored := by cases key <;> rfl

@[simp] theorem setLock_repos (state : RepoState Λ ι) (holder : Holder ι) (key : Option RepoSource) :
    (state.setLock holder key).repos = state.repos := by cases key <;> rfl

@[simp] theorem setLock_repoVfsOps (state : RepoState Λ ι) (holder : Holder ι) (key : Option RepoSource) :
    (state.setLock holder key).repoVfsOps = state.repoVfsOps := by cases key <;> rfl

@[simp] theorem setLock_self (state : RepoState Λ ι) (holder : Holder ι) (src : RepoSource) :
    (state.setLock holder (some src)).locks src = holder := Function.update_self ..

section Create

variable [DecidableEq Λ]

def RepoState.create (state : RepoState Λ ι) (location : Λ) : RepoState Λ ι :=
  { state with stored := Function.update state.stored location true }

/-- What a failed or panicking `init` leaves behind. -/
def RepoState.afterInit (state : RepoState Λ ι) (location : Λ) (left : Bool) : RepoState Λ ι :=
  if left then state.create location else state

@[simp] theorem afterInit_calls (state : RepoState Λ ι) (location : Λ) (left : Bool) :
    (state.afterInit location left).calls = state.calls := by cases left <;> rfl

@[simp] theorem afterInit_locks (state : RepoState Λ ι) (location : Λ) (left : Bool) :
    (state.afterInit location left).locks = state.locks := by cases left <;> rfl

@[simp] theorem afterInit_repos (state : RepoState Λ ι) (location : Λ) (left : Bool) :
    (state.afterInit location left).repos = state.repos := by cases left <;> rfl

@[simp] theorem afterInit_repoVfsOps (state : RepoState Λ ι) (location : Λ) (left : Bool) :
    (state.afterInit location left).repoVfsOps = state.repoVfsOps := by cases left <;> rfl

@[simp] theorem setLock_afterInit (state : RepoState Λ ι) (location : Λ) (left : Bool) (holder : Holder ι)
    (key : Option RepoSource) : ((state.afterInit location left).setLock holder key).locks = (state.setLock holder key).locks := by
  cases left <;> cases key <;> rfl

end Create

variable [DecidableEq ι]

def RepoState.goto (state : RepoState Λ ι) (call : ι) (pc : RepoPc) : RepoState Λ ι :=
  { state with calls := Function.update state.calls call pc }

@[simp] theorem goto_calls (state : RepoState Λ ι) (call : ι) (pc : RepoPc) :
    (state.goto call pc).calls = Function.update state.calls call pc := rfl

@[simp] theorem goto_locks (state : RepoState Λ ι) (call : ι) (pc : RepoPc) : (state.goto call pc).locks = state.locks := rfl

@[simp] theorem goto_stored (state : RepoState Λ ι) (call : ι) (pc : RepoPc) : (state.goto call pc).stored = state.stored := rfl

@[simp] theorem goto_repos (state : RepoState Λ ι) (call : ι) (pc : RepoPc) : (state.goto call pc).repos = state.repos := rfl

@[simp] theorem goto_repoVfsOps (state : RepoState Λ ι) (call : ι) (pc : RepoPc) :
    (state.goto call pc).repoVfsOps = state.repoVfsOps := rfl

/-- A panic under the lock poisons it. -/
def RepoState.panic (state : RepoState Λ ι) (call : ι) (caller : Caller) : RepoState Λ ι :=
  (state.setLock .stuck caller.lockKey).goto call (.returned (.error caller.panicError))

@[simp] theorem panic_calls (state : RepoState Λ ι) (call : ι) (caller : Caller) :
    (state.panic call caller).calls = Function.update state.calls call (.returned (.error caller.panicError)) := by
  simp [RepoState.panic]

@[simp] theorem panic_locks (state : RepoState Λ ι) (call : ι) (caller : Caller) :
    (state.panic call caller).locks = (state.setLock .stuck caller.lockKey).locks := rfl

@[simp] theorem panic_repos (state : RepoState Λ ι) (call : ι) (caller : Caller) : (state.panic call caller).repos = state.repos := by
  simp [RepoState.panic]

@[simp] theorem panic_repoVfsOps (state : RepoState Λ ι) (call : ι) (caller : Caller) :
    (state.panic call caller).repoVfsOps = state.repoVfsOps := by
  simp [RepoState.panic]

/-- Why a job cannot set up its backend; the others do that later. -/
def Caller.backendError (caller : Caller) (answer : Answer) : Option String :=
  match caller.lockKey with
  | some _ => none
  | none => answer.error

/-- Where the probe of `prepare_repo_unlocked` or `create_for_job` leads. -/
def probe (stored : Bool) (caller : Caller) (answer : Answer) : RepoPc :=
  if answer.invalid ∧ caller.lockKey.isSome then caller.exit (.error (.storage "Invalid storage config"))
  else
    match repoExists stored answer.failure, caller.backendError answer with
    | .error message, _ => caller.exit (.error (.storage message))
    | .ok _, some message => caller.exit (.error (.storage message))
    | .ok true, none => .opening
    | .ok false, none => if caller.allowInit then .init else caller.exit (.error caller.missingError)

variable [DecidableEq Λ]

def advance (locate : RepoSource → Λ) (state : RepoState Λ ι) (call : ι) (caller : Caller) (answer : Answer) :
    RepoPc → Option (RepoState Λ ι)
  | .absent | .returned _ => none
  | .lookup =>
    match state.cached caller with
    | some handle => some (state.goto call (.returned (.ok handle)))
    | none => some (state.goto call .lock)
  | .lock =>
    match caller.lockKey with
    | none => none
    | some src =>
      match state.locks src with
      | .free => some ((state.setLock (.held call) (some src)).goto call .check)
      | .held _ => none
      | .stuck => some (state.goto call (.returned (.error caller.poisonedError)))
  | .check =>
    match state.cached caller with
    | some handle => some (state.goto call (caller.exit (.ok handle)))
    | none => some (state.goto call .probe)
  | .probe =>
    if answer.panics then some (state.panic call caller) else some (state.goto call (probe (state.stored (locate caller.src)) caller answer))
  | .init =>
    if answer.panics then some ((state.afterInit (locate caller.src) answer.left).panic call caller)
    else
      match answer.error with
      | some message => some ((state.afterInit (locate caller.src) answer.left).goto call (caller.exit (.error (.storage message))))
      | none => some ((state.create (locate caller.src)).goto call .opening)
  | .opening =>
    if answer.panics then some (state.panic call caller)
    else
      match answer.error with
      | some message => some (state.goto call (caller.exit (.error (caller.openError message))))
      | none => some ({ state with opened := state.opened + 1 }.goto call (caller.keep state.opened))
  | .insert handle => some ((state.store handle caller).goto call (.unlock (.ok handle)))
  | .unlock result => some ((state.setLock .free caller.lockKey).goto call (.returned result))

def entry : Caller → RepoPc
  | .createForJob _ _ => .probe
  | _ => .lookup

def repoStep (locate : RepoSource → Λ) (callers : ι → Caller) (state : RepoState Λ ι) : RepoEvent ι → Option (RepoState Λ ι)
  | .call call => if state.calls call = .absent then some (state.goto call (entry (callers call))) else none
  | .advance call answer => advance locate state call (callers call) answer (state.calls call)
  | .removeRepo src => some { state with repos := Function.update state.repos src none }
  | .removeVfsOp src => some { state with repoVfsOps := Function.update state.repoVfsOps src none }

end Vaulton.RepoStore
