import Vaulton.Config

/-! Cached read handles (`vfs_read_file`, `get_read_handle`, `read_from_handle` and
`invalidate_read_handle` of `ipc/src/server.rs`, with the reaper of `GrpcServer::new`)
beside the writes, for one local file that exists throughout and so for one key. A handle
is named by the ReadFile request that opened it; every descriptor reads the same file. The
clones of a handle's descriptor share one cursor. -/

namespace Vaulton.ReadHandles
open Vaulton.Config

/-- Largest single read. -/
def MAX_READ : Nat := 32 * 1024 * 1024

structure ReadArgs where
  offset : Nat
  length : Nat
  deriving DecidableEq

def lengthExceeded : Status := ⟨.invalidArgument, s!"length exceeds {MAX_READ} bytes; read in chunks"⟩

def handleExpired : Status := ⟨.notFound, "read handle expired"⟩

def fileTooLarge (len : Nat) : Status :=
  ⟨.invalidArgument, s!"file is {len} bytes; use offset/length to read in chunks of <= {MAX_READ}"⟩

/-- The range `vfs_read_file` asks of its handle: length 0 means the whole file, whatever
the offset. -/
def readRange (args : ReadArgs) (len : Nat) : Except Status (Nat × Nat) :=
  if args.length = 0 then
    if len > MAX_READ then .error (fileTooLarge len) else .ok (0, len)
  else .ok (args.offset, args.length)

/-- The bytes of a range; the file may end before the range does. -/
def readBytes (contents : List UInt8) (offset length : Nat) : List UInt8 := (contents.drop offset).take length

/-! ### Changes of a file -/

/-- `write_all` behind the end of the file leaves zeros in between. -/
def writeAll (contents : List UInt8) (offset : Nat) (data : List UInt8) : List UInt8 :=
  if data = [] then contents
  else contents.take offset ++ List.replicate (offset - contents.length) 0 ++ data ++ contents.drop (offset + data.length)

def setLen (contents : List UInt8) (length : Nat) : List UInt8 :=
  contents.take length ++ List.replicate (length - contents.length) 0

inductive WriteArgs where
  | writeAt (offset : Nat) (data : List UInt8) (append : Bool)
  | setLength (length : Nat)
  deriving DecidableEq

def WriteArgs.change (contents : List UInt8) : WriteArgs → List UInt8
  | .writeAt offset data append => writeAll contents (if append then contents.length else offset) data
  | .setLength length => setLen contents length

/-! ### Requests -/

structure ReadHandle (ρ : Type) where
  id : ρ
  len : Nat
  deriving DecidableEq

inductive ReadPc (ρ : Type) where
  | start
  | lookup
  | liveCheck (handle : ReadHandle ρ)
  | removeKey
  | metadata
  | insert (len : Nat)
  /-- `vfs_read_file` tests the flag of the handle it got, `read_from_handle` once more. -/
  | firstCheck (handle : ReadHandle ρ)
  | lastCheck (handle : ReadHandle ρ) (offset length : Nat)
  | seek (id : ρ) (offset length : Nat)
  /-- What `read_to_end` has so far, and how much is still to be taken. -/
  | read (id : ρ) (rest : Nat) (out : List UInt8)
  | returned (answer : Except Status (List UInt8))

inductive WritePc (ρ : Type) where
  | invalidate
  | expire (id : ρ)
  | change
  | returned
  deriving DecidableEq

inductive ReaperPc (ρ : Type) where
  | tick
  | remove
  | expire (id : ρ)
  deriving DecidableEq

structure ReadsState (ρ ω : Type) where
  contents : List UInt8
  /-- The entry of `read_handles` under the file's key. -/
  cached : Option (ReadHandle ρ)
  expired : ρ → Bool
  cursors : ρ → Nat
  reads : ρ → ReadPc ρ
  writes : ω → WritePc ρ
  reaper : ReaperPc ρ

inductive ReadsEvent (ρ ω : Type) where
  /-- One read of the descriptor returns at most `size + 1` bytes. -/
  | read (request : ρ) (size : Nat)
  | write (request : ω) (fails : Bool)
  | reaper (idle : Bool)
  deriving DecidableEq

def readsStart {ρ ω : Type} (contents : List UInt8) : ReadsState ρ ω where
  contents := contents
  cached := none
  expired := fun _ => false
  cursors := fun _ => 0
  reads := fun _ => .start
  writes := fun _ => .invalidate
  reaper := .tick

variable {ρ ω : Type} [DecidableEq ρ] [DecidableEq ω]

def ReadsState.moveRead (state : ReadsState ρ ω) (request : ρ) (pc : ReadPc ρ) : ReadsState ρ ω :=
  { state with reads := Function.update state.reads request pc }

def ReadsState.moveWrite (state : ReadsState ρ ω) (request : ω) (pc : WritePc ρ) : ReadsState ρ ω :=
  { state with writes := Function.update state.writes request pc }

def readStep (args : ReadArgs) (state : ReadsState ρ ω) (request : ρ) (size : Nat) : ReadPc ρ → Option (ReadsState ρ ω)
  | .start =>
    if args.length > MAX_READ then some (state.moveRead request (.returned (.error lengthExceeded)))
    else some (state.moveRead request .lookup)
  | .lookup =>
    match state.cached with
    | some handle => some (state.moveRead request (.liveCheck handle))
    | none => some (state.moveRead request .metadata)
  | .liveCheck handle =>
    if state.expired handle.id then some (state.moveRead request .removeKey)
    else some (state.moveRead request (.firstCheck handle))
  | .removeKey => some { state.moveRead request .metadata with cached := none }
  | .metadata => some (state.moveRead request (.insert state.contents.length))
  | .insert len =>
    -- The replaced handle is out of the map, so nobody can expire it any more.
    let own : ReadHandle ρ := ⟨request, len⟩
    let kept := match state.cached with
      | some existing => if state.expired existing.id then own else existing
      | none => own
    some { state.moveRead request (.firstCheck kept) with
      cached := some own
      expired := Function.update state.expired request false }
  | .firstCheck handle =>
    if state.expired handle.id then some (state.moveRead request (.returned (.error handleExpired)))
    else match readRange args handle.len with
      | .error status => some (state.moveRead request (.returned (.error status)))
      | .ok (offset, length) => some (state.moveRead request (.lastCheck handle offset length))
  | .lastCheck handle offset length =>
    if state.expired handle.id then some (state.moveRead request (.returned (.error handleExpired)))
    else if offset ≥ handle.len ∨ length = 0 then some (state.moveRead request (.returned (.ok [])))
    else some (state.moveRead request (.seek handle.id offset (min length (handle.len - offset))))
  | .seek id offset length => some { state.moveRead request (.read id length []) with
      cursors := Function.update state.cursors id offset }
  | .read id rest out =>
    let bytes := readBytes state.contents (state.cursors id) (min (size + 1) rest)
    if bytes = [] then some (state.moveRead request (.returned (.ok out)))
    else some { state.moveRead request (.read id (rest - bytes.length) (out ++ bytes)) with
      cursors := Function.update state.cursors id (state.cursors id + bytes.length) }
  | .returned _ => none

def writeStep (args : WriteArgs) (state : ReadsState ρ ω) (request : ω) (fails : Bool) :
    WritePc ρ → Option (ReadsState ρ ω)
  | .invalidate =>
    match state.cached with
    | some handle => some { state.moveWrite request (.expire handle.id) with cached := none }
    | none => some (state.moveWrite request .change)
  | .expire id => some { state.moveWrite request .change with expired := Function.update state.expired id true }
  | .change =>
    -- The write handle was closed meanwhile, or the quota is full.
    if fails then some (state.moveWrite request .returned)
    else some { state.moveWrite request .returned with contents := args.change state.contents }
  | .returned => none

def reaperStep (state : ReadsState ρ ω) (idle : Bool) : ReaperPc ρ → Option (ReadsState ρ ω)
  | .tick => if idle ∧ state.cached.isSome then some { state with reaper := .remove } else some state
  | .remove =>
    match state.cached with
    | some handle => some { state with cached := none, reaper := .expire handle.id }
    | none => some { state with reaper := .tick }
  | .expire id => some { state with expired := Function.update state.expired id true, reaper := .tick }

def readsStep (reads : ρ → ReadArgs) (writes : ω → WriteArgs) (state : ReadsState ρ ω) :
    ReadsEvent ρ ω → Option (ReadsState ρ ω)
  | .read request size => readStep (reads request) state request size (state.reads request)
  | .write request fails => writeStep (writes request) state request fails (state.writes request)
  | .reaper idle => reaperStep state idle state.reaper

end Vaulton.ReadHandles
