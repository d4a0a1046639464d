import Vaulton.SetVfs
import Vaulton.Transfer

/-! Write handles beside SetVfs (`vfs_open_write`, `vfs_write_at`, the handle branch of
`vfs_set_length`, `vfs_close_write`, `close_write_handle` and
`invalidate_user_write_handles` of `ipc/src/server.rs`). Permission is checked when a
handle is opened; later requests only look the handle up and test its `expired` flag.
A handle is named by the OpenWrite request that creates it. -/

namespace Vaulton.WriteHandles
open Vaulton.Config Vaulton.SetVfs Vaulton.Transfer

/-- The part of an `ActiveWriteHandle` that never changes. -/
structure Handle where
  username : Text
  pointId : Uuid
  deriving DecidableEq

/-- The user and the point that an OpenWrite path names. -/
structure OpenRequest where
  username : Text
  names : VfsPoint → Bool

inductive OpenPc where
  | readUser
  | check (user : VfsUser) (point : VfsPoint)
  | openFile (user : VfsUser) (point : VfsPoint)
  | insert (user : VfsUser) (point : VfsPoint)
  | returned (opened : Bool)
  deriving DecidableEq

/-- WriteAt tests the flag before and after it waits for the handle's state, SetLength
only after. -/
inductive WriteKind where
  | writeAt
  | setLength
  deriving DecidableEq, Repr

inductive WritePc (ι : Type) where
  | lookup
  | firstCheck (id : ι) (handle : Handle)
  | lastCheck (id : ι) (handle : Handle)
  | change (handle : Handle)
  | returned
  deriving DecidableEq

inductive CallPc (ι : Type) where
  | readUsers
  | setUsers (old : List VfsUser)
  /-- `invalidate_user_write_handles` for every changed user: collect the ids of the
  user's handles, then remove them one by one. -/
  | invalidate (usernames : List Text)
  | remove (ids : List ι) (usernames : List Text)
  | returned
  deriving DecidableEq

structure HandlesState (ι ω κ : Type) where
  stored : List VfsUser
  writeHandles : List (ι × Handle)
  expired : ι → Bool
  /-- A handle that was removed and whose `close_write_handle` has not run yet. -/
  closing : ι → Bool
  opens : ι → OpenPc
  writes : ω → WritePc ι
  calls : κ → CallPc ι
  /-- The requests that have changed a file of the point. -/
  files : Uuid → List ω

inductive HandlesEvent (ι ω κ : Type) where
  | openWrite (id : ι) (fails : Bool)
  | write (request : ω) (fails : Bool)
  | closeWrite (id : ι)
  | closeTask (id : ι)
  | setVfs (call : κ) (fails : Bool)
  deriving DecidableEq

/-- What a write request was sent with. -/
structure WriteRequest (ι : Type) where
  kind : WriteKind
  handle : ι

def handlesStart {ι ω κ : Type} (stored : List VfsUser) : HandlesState ι ω κ where
  stored := stored
  writeHandles := []
  expired := fun _ => false
  closing := fun _ => false
  opens := fun _ => .readUser
  writes := fun _ => .lookup
  calls := fun _ => .readUsers
  files := fun _ => []

variable {ι ω κ : Type} [DecidableEq ι] [DecidableEq ω] [DecidableEq κ]

def openStep (request : OpenRequest) (state : HandlesState ι ω κ) (id : ι) (fails : Bool) :
    OpenPc → Option (HandlesState ι ω κ)
  | .readUser =>
    match state.stored.find? fun user => user.username = request.username with
    | none => some { state with opens := Function.update state.opens id (.returned false) }
    | some user =>
      match user.points.find? request.names with
      | none => some { state with opens := Function.update state.opens id (.returned false) }
      | some point => some { state with opens := Function.update state.opens id (.check user point) }
  | .check user point =>
    match requireUserWritable point with
    | .ok () => some { state with opens := Function.update state.opens id (.openFile user point) }
    | .error _ => some { state with opens := Function.update state.opens id (.returned false) }
  | .openFile user point =>
    if fails then some { state with opens := Function.update state.opens id (.returned false) }
    else some { state with opens := Function.update state.opens id (.insert user point) }
  | .insert user point => some { state with
      writeHandles := (id, ⟨user.username, point.id⟩) :: state.writeHandles
      opens := Function.update state.opens id (.returned true) }
  | .returned _ => none

def writeStep (request : WriteRequest ι) (state : HandlesState ι ω κ) (id : ω) (fails : Bool) :
    WritePc ι → Option (HandlesState ι ω κ)
  | .lookup =>
    match state.writeHandles.find? fun entry => entry.1 = request.handle with
    | none => some { state with writes := Function.update state.writes id .returned }
    | some (opened, handle) =>
      match request.kind with
      | .writeAt => some { state with writes := Function.update state.writes id (.firstCheck opened handle) }
      | .setLength => some { state with writes := Function.update state.writes id (.lastCheck opened handle) }
  | .firstCheck opened handle =>
    if state.expired opened then some { state with writes := Function.update state.writes id .returned }
    else some { state with writes := Function.update state.writes id (.lastCheck opened handle) }
  | .lastCheck opened handle =>
    if state.expired opened then some { state with writes := Function.update state.writes id .returned }
    else some { state with writes := Function.update state.writes id (.change handle) }
  | .change handle =>
    -- A full quota or an I/O error.
    if fails then some { state with writes := Function.update state.writes id .returned }
    else some { state with
      files := Function.update state.files handle.pointId (id :: state.files handle.pointId)
      writes := Function.update state.writes id .returned }
  | .returned => none

/-- Takes a handle out of the map and leaves it to its close task. -/
def HandlesState.removeHandle (state : HandlesState ι ω κ) (id : ι) : HandlesState ι ω κ :=
  if state.writeHandles.any fun entry => entry.1 = id then
    { state with
      writeHandles := state.writeHandles.filter fun entry => entry.1 ≠ id
      closing := Function.update state.closing id true }
  else state

/-- The ids of the user's handles. -/
def userHandles (handles : List (ι × Handle)) (username : Text) : List ι :=
  (handles.filter fun entry => entry.2.username = username).map Prod.fst

def callStep (users : List VfsUser) (state : HandlesState ι ω κ) (call : κ) (fails : Bool) :
    CallPc ι → Option (HandlesState ι ω κ)
  | .readUsers => some { state with calls := Function.update state.calls call (.setUsers state.stored) }
  | .setUsers old =>
    if fails then some { state with calls := Function.update state.calls call .returned }
    else some { state with
      stored := users
      calls := Function.update state.calls call (.invalidate ((changedUsers old users).map VfsUser.username)) }
  | .invalidate [] => some { state with calls := Function.update state.calls call .returned }
  | .invalidate (username :: rest) => some { state with
      calls := Function.update state.calls call (.remove (userHandles state.writeHandles username) rest) }
  | .remove [] rest => some { state with calls := Function.update state.calls call (.invalidate rest) }
  | .remove (id :: ids) rest =>
    let removed := state.removeHandle id
    some { removed with calls := Function.update removed.calls call (.remove ids rest) }
  | .returned => none

def handlesStep (requests : ι → OpenRequest) (writes : ω → WriteRequest ι) (users : κ → List VfsUser)
    (state : HandlesState ι ω κ) : HandlesEvent ι ω κ → Option (HandlesState ι ω κ)
  | .openWrite id fails => openStep (requests id) state id fails (state.opens id)
  | .write request fails => writeStep (writes request) state request fails (state.writes request)
  | .closeWrite id => some (state.removeHandle id)
  | .closeTask id =>
    if state.closing id then some { state with
      expired := Function.update state.expired id true
      closing := Function.update state.closing id false }
    else none
  | .setVfs call fails => callStep (users call) state call fails (state.calls call)

end Vaulton.WriteHandles
