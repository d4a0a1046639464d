import Vaulton.LocalQuota

/-! The life of one write handle (`vfs_write_at`, the handle branch of `vfs_set_length`,
`vfs_close_write` and `finalize_write_state` of `ipc/src/server.rs`). A call clones the
handle out of the map and may go on with it after the handle has left the map. The state
of the handle is behind an async mutex, and `expired` is read and written outside it. -/

namespace Vaulton.CloseWrite
open Vaulton.Config Vaulton.Transfer Vaulton.LocalQuota

structure WriteState where
  file : List UInt8
  len : Nat
  deriving DecidableEq, Repr

/-- The part of an `ActiveWriteHandle` that never changes. -/
structure ActiveWriteHandle where
  maxBytes : Option Nat
  quotaBaseBytes : Nat
  append : Bool

inductive Request where
  | writeAt (offset : Nat) (data : List UInt8)
  | setLength (length : Nat)

/-- What the file answers. A failed write has put some of its bytes into the file. -/
inductive Io where
  | done
  | seekFails (error : Status)
  | writeFails (written : Nat) (error : Status)
  deriving DecidableEq

def unknownHandle : Status := ⟨.notFound, "unknown or already-closed write handle"⟩

def handleExpired : Status := ⟨.notFound, "write handle expired"⟩

def handleClosed : Status := ⟨.notFound, "write handle closed"⟩

/-- Bytes written behind the end leave zeros in between; writing no bytes changes nothing. -/
def overwrite (file : List UInt8) (offset : Nat) (data : List UInt8) : List UInt8 :=
  if data = [] then file
  else file.take offset ++ List.replicate (offset - file.length) 0 ++ data ++ file.drop (offset + data.length)

def setLen (file : List UInt8) (length : Nat) : List UInt8 :=
  file.take length ++ List.replicate (length - file.length) 0

/-- The writing part of `vfs_write_at`, under the lock. -/
def writeData (handle : ActiveWriteHandle) (offset : Nat) (data : List UInt8) (io : Io) (state : WriteState) :
    Except Status Unit × WriteState :=
  let writeOffset := if handle.append then state.file.length else offset
  let newLen := max state.len (writeOffset + data.length)
  -- Only in append mode the position is looked up before the checks.
  match handle.append, io with
  | true, .seekFails error => (.error error, state)
  | _, _ =>
    if u64Max < writeOffset + data.length then (.error ⟨.invalidArgument, "offset overflow"⟩, state)
    else
      match checkWrite handle.maxBytes handle.quotaBaseBytes newLen with
      | .error error => (.error error, state)
      | .ok () =>
        match io with
        | .done => (.ok (), ⟨overwrite state.file writeOffset data, newLen⟩)
        | .seekFails error => (.error error, state)
        | .writeFails written error =>
          (.error error, { state with file := overwrite state.file writeOffset (data.take written) })

/-- The resizing part of `vfs_set_length`, under the lock. -/
def resize (handle : ActiveWriteHandle) (length : Nat) (io : Io) (state : WriteState) :
    Except Status Unit × WriteState :=
  match checkSetLength handle.maxBytes handle.quotaBaseBytes length with
  | .error error => (.error error, state)
  | .ok () =>
    match io with
    | .done => (.ok (), ⟨setLen state.file length, length⟩)
    | .seekFails error | .writeFails _ error => (.error error, state)

def act (handle : ActiveWriteHandle) : Request → Io → WriteState → Except Status Unit × WriteState
  | .writeAt offset data => writeData handle offset data
  | .setLength length => resize handle length

inductive RequestPc where
  | fetch
  | firstCheck
  | lock
  | lastCheck
  | act
  | release (result : Except Status Unit)
  | returned (result : Except Status Unit)
  deriving DecidableEq

inductive ClosePc where
  | remove
  | expire
  | lock
  | flush
  | release (result : Except Status Unit)
  /-- The answer of a close that did not find the handle. -/
  | refused
  | returned (result : Except Status Unit)
  deriving DecidableEq

structure HandleState (ω κ : Type) where
  mapped : Bool
  expired : Bool
  /-- Who holds the mutex. -/
  holder : Option (ω ⊕ κ)
  state : WriteState
  requests : ω → RequestPc
  closes : κ → ClosePc

inductive HandleEvent (ω κ : Type) where
  | request (id : ω) (io : Io)
  /-- `flush` and `sync_all` may fail. -/
  | close (id : κ) (fails : Option Status)
  deriving DecidableEq

def handleStart {ω κ : Type} (state : WriteState) : HandleState ω κ where
  mapped := true
  expired := false
  holder := none
  state := state
  requests := fun _ => .fetch
  closes := fun _ => .remove

variable {ω κ : Type} [DecidableEq ω] [DecidableEq κ]

def HandleState.request (state : HandleState ω κ) (id : ω) (pc : RequestPc) : HandleState ω κ :=
  { state with requests := Function.update state.requests id pc }

def HandleState.close (state : HandleState ω κ) (id : κ) (pc : ClosePc) : HandleState ω κ :=
  { state with closes := Function.update state.closes id pc }

def requestStep (handle : ActiveWriteHandle) (call : Request) (state : HandleState ω κ) (id : ω) (io : Io) :
    RequestPc → Option (HandleState ω κ)
  | .fetch =>
    if state.mapped then
      match call with
      | .writeAt _ _ => some (state.request id .firstCheck)
      | .setLength _ => some (state.request id .lock)
    else some (state.request id (.returned (.error unknownHandle)))
  | .firstCheck =>
    if state.expired then some (state.request id (.returned (.error handleExpired)))
    else some (state.request id .lock)
  | .lock =>
    if state.holder = none then some { state.request id .lastCheck with holder := some (.inl id) } else none
  | .lastCheck =>
    if state.expired then some (state.request id (.release (.error handleClosed)))
    else some (state.request id .act)
  | .act =>
    let (result, changed) := act handle call io state.state
    some { state.request id (.release result) with state := changed }
  | .release result => some { state.request id (.returned result) with holder := none }
  | .returned _ => none

def closeStep (state : HandleState ω κ) (id : κ) (fails : Option Status) : ClosePc → Option (HandleState ω κ)
  | .remove =>
    if state.mapped then some { state.close id .expire with mapped := false } else some (state.close id .refused)
  | .expire => some { state.close id .lock with expired := true }
  | .lock =>
    if state.holder = none then some { state.close id .flush with holder := some (.inr id) } else none
  | .flush =>
    match fails with
    | none => some (state.close id (.release (.ok ())))
    | some error => some (state.close id (.release (.error error)))
  | .release result => some { state.close id (.returned result) with holder := none }
  | .refused | .returned _ => none

def handleStep (handle : ActiveWriteHandle) (calls : ω → Request) (state : HandleState ω κ) :
    HandleEvent ω κ → Option (HandleState ω κ)
  | .request id io => requestStep handle (calls id) state id io (state.requests id)
  | .close id fails => closeStep state id fails (state.closes id)

/-- What a CloseWrite has answered. -/
def ClosePc.answer : ClosePc → Option (Except Status Unit)
  | .refused => some (.error unknownHandle)
  | .returned result => some result
  | .remove | .expire | .lock | .flush | .release _ => none

end Vaulton.CloseWrite
