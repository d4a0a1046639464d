import Vaulton.SetVfs
import Vaulton.Transfer

/-! The operators that jobs run with (`StorageManager::get_data_operator` and
`point_operator`) beside SetVfs calls. The cache is keyed by point id; an operator is
represented by the policy its layers apply. A request and a SetVfs call are cut at every
access to the database or the cache. -/

namespace Vaulton.DataOps
open Vaulton.Config Vaulton.SetVfs Vaulton.Transfer

def quotaId (username : Text) (pointId : Uuid) : Text := username ++ '-' :: pointId.hyphenated

structure JobOperator where
  scheme : Text
  config : List (Text × Text)
  readOnly : Bool
  /-- The quota layer: its id and limit. -/
  quota : Option (Text × Nat)
  deriving DecidableEq

def pointOperator (user : VfsUser) (point : VfsPoint) : JobOperator where
  scheme := point.scheme
  config := point.config
  readOnly := point.readOnly
  quota :=
    if point.readOnly then none
    else
      match point.maxBytes with
      | none => none
      -- Local data points are measured on disk by the write handlers instead.
      | some max => if point.isRepo ∨ isLocalScheme point.scheme = false then some (quotaId user.username point.id, max) else none

/-- The point a job names: by id, or by name and kind. -/
structure JobRequest where
  username : Text
  names : VfsPoint → Bool

inductive RequestPc where
  | readUser
  /-- `get_data_operator`: ask the cache, build, insert. -/
  | lookup (user : VfsUser) (point : VfsPoint)
  | build (user : VfsUser) (point : VfsPoint)
  | insert (user : VfsUser) (point : VfsPoint)
  | returned (result : Option JobOperator)
  deriving DecidableEq

inductive CallPc where
  | readUsers
  | setUsers (old : List VfsUser)
  /-- `invalidate_vfs` of the changed users, with the point ids still to go. -/
  | invalidate (ids : List Uuid)
  | done
  deriving DecidableEq

structure DataOpsState (ι κ : Type) where
  stored : List VfsUser
  dataOps : Uuid → Option JobOperator
  requests : ι → RequestPc
  calls : κ → CallPc

inductive DataOpsEvent (ι κ : Type) where
  | request (request : ι) (fails : Bool)
  | setVfs (call : κ) (fails : Bool)
  deriving DecidableEq

def dataOpsStart {ι κ : Type} (stored : List VfsUser) : DataOpsState ι κ :=
  ⟨stored, fun _ => none, fun _ => .readUser, fun _ => .readUsers⟩

/-- One step of a request: the cache and the new position. -/
def requestStep (request : JobRequest) (stored : List VfsUser) (dataOps : Uuid → Option JobOperator) (fails : Bool) :
    RequestPc → Option ((Uuid → Option JobOperator) × RequestPc)
  | .readUser =>
    match stored.find? fun user => user.username = request.username with
    | none => some (dataOps, .returned none)
    | some user =>
      match user.points.find? request.names with
      | none => some (dataOps, .returned none)
      | some point => some (dataOps, .lookup user point)
  | .lookup user point =>
    match dataOps point.id with
    | some operator => some (dataOps, .returned (some operator))
    | none => some (dataOps, .build user point)
  | .build user point =>
    if fails then some (dataOps, .returned none) else some (dataOps, .insert user point)
  | .insert user point =>
    some (Function.update dataOps point.id (some (pointOperator user point)), .returned (some (pointOperator user point)))
  | .returned _ => none

/-- The ids that a call invalidates after replacing the users it has read. -/
def invalidatedIds (oldUsers users : List VfsUser) : List Uuid := (allPoints (changedUsers oldUsers users)).map VfsPoint.id

variable {ι κ : Type} [DecidableEq ι] [DecidableEq κ]

def callStep (users : List VfsUser) (state : DataOpsState ι κ) (call : κ) (fails : Bool) : CallPc → Option (DataOpsState ι κ)
  | .readUsers => some { state with calls := Function.update state.calls call (.setUsers state.stored) }
  | .setUsers old =>
    if fails then some { state with calls := Function.update state.calls call .done }
    else some { state with
      stored := users
      calls := Function.update state.calls call (.invalidate (invalidatedIds old users)) }
  | .invalidate [] => some { state with calls := Function.update state.calls call .done }
  | .invalidate (id :: rest) => some { state with
      dataOps := Function.update state.dataOps id none
      calls := Function.update state.calls call (.invalidate rest) }
  | .done => none

def dataOpsStep (requests : ι → JobRequest) (users : κ → List VfsUser) (state : DataOpsState ι κ) :
    DataOpsEvent ι κ → Option (DataOpsState ι κ)
  | .request request fails =>
    (requestStep (requests request) state.stored state.dataOps fails (state.requests request)).map fun (dataOps, pc) =>
      { state with dataOps, requests := Function.update state.requests request pc }
  | .setVfs call fails => callStep (users call) state call fails (state.calls call)

end Vaulton.DataOps
