import Mathlib

/-! The in-memory quota engine (`opendal-vfs/src/layers/quota.rs`): one counter per
quota id, changed by a compare-and-swap loop, and a background task that copies
dirty counters to a tracker. Every shared access is a step of its own; what the
machine or the tracker may choose (a spurious exchange failure, a failed load, a
failed sync) is part of the event. -/

namespace Vaulton.Quota

def u64Max : Nat := 2 ^ 64 - 1

def saturatingAdd (first second : Nat) : Nat := min (first + second) u64Max

def saturatingSub (first second : Nat) : Nat := first - second

inductive ErrorKind where
  | notFound
  | rateLimited
  | unexpected
  deriving DecidableEq, Repr

structure Error where
  kind : ErrorKind
  message : String
  context : List (String × String)
  deriving DecidableEq, Repr

/-- `Result<u64>` of a counter operation. -/
inductive Reply where
  | ok (total : Nat)
  | err (error : Error)
  deriving DecidableEq, Repr

def quotaExceededError (id : String) (current hypothetical limit : Nat) : Error where
  kind := .rateLimited
  message := s!"write quota exceeded for '{id}': {current} used, {hypothetical} would be needed, {limit} limit"
  context := [("quota_id", id), ("quota_limit", toString limit), ("quota_used", toString current)]

/-! ### One counter -/

structure QuotaCounter where
  bytes : Nat
  /-- Set by every change, cleared by the sync task. -/
  dirty : Bool
  deriving DecidableEq, Repr

def QuotaCounter.new (initial : Nat) : QuotaCounter := ⟨initial, false⟩

/-- The arguments of one `apply_delta` call. -/
structure Delta where
  id : String
  oldSize : Nat
  newSize : Nat
  limit : Nat
  deriving DecidableEq, Repr

def Delta.newTotal (delta : Delta) (current : Nat) : Nat :=
  saturatingAdd (saturatingSub current delta.oldSize) delta.newSize

/-- `commit_write` replaces `old_size` bytes by `new_size` bytes under a limit. -/
def commitWrite (id : String) (limit oldSize newSize : Nat) : Delta := ⟨id, oldSize, newSize, limit⟩

/-- `commit_delete` subtracts and is never rejected. -/
def commitDelete (id : String) (size : Nat) : Delta := ⟨id, size, 0, u64Max⟩

/-- Where an `apply_delta` call stands between two of its shared accesses. -/
inductive DeltaPc where
  | load
  | exchange (current : Nat)
  | mark (newTotal : Nat)
  | returned (result : Reply)
  deriving DecidableEq, Repr

/-- The head of the loop: the limit is tested on the value just observed. -/
def attempt (delta : Delta) (current : Nat) : DeltaPc :=
  if delta.newTotal current > delta.limit then
    .returned (.err (quotaExceededError delta.id current (delta.newTotal current) delta.limit))
  else .exchange current

/-- One shared access of `apply_delta`. A failed `compare_exchange_weak` hands back
the value it observed, also when it failed spuriously. -/
def applyDeltaStep (delta : Delta) (spurious : Bool) (counter : QuotaCounter) :
    DeltaPc → Option (QuotaCounter × DeltaPc)
  | .load => some (counter, attempt delta counter.bytes)
  | .exchange current =>
    if counter.bytes = current ∧ spurious = false then
      some ({ counter with bytes := delta.newTotal current }, .mark (delta.newTotal current))
    else some (counter, attempt delta counter.bytes)
  | .mark newTotal => some ({ counter with dirty := true }, .returned (.ok newTotal))
  | .returned _ => none

/-- The same call with nobody else touching the counter. -/
def applyDelta (delta : Delta) (counter : QuotaCounter) : QuotaCounter × Reply :=
  if delta.newTotal counter.bytes > delta.limit then
    (counter, .err (quotaExceededError delta.id counter.bytes (delta.newTotal counter.bytes) delta.limit))
  else (⟨delta.newTotal counter.bytes, true⟩, .ok (delta.newTotal counter.bytes))

/-! ### Any number of calls on one counter -/

structure CounterState (ι : Type) where
  counter : QuotaCounter
  /-- `none` until the call is made. -/
  pcs : ι → Option DeltaPc

inductive CounterEvent (ι : Type) where
  | invoke (call : ι)
  | advance (call : ι) (spurious : Bool)
  deriving DecidableEq

variable {ι : Type} [DecidableEq ι]

def counterStart (bytes : Nat) : CounterState ι := ⟨.new bytes, fun _ => none⟩

def counterStep (calls : ι → Delta) (state : CounterState ι) : CounterEvent ι → Option (CounterState ι)
  | .invoke call =>
    match state.pcs call with
    | none => some { state with pcs := Function.update state.pcs call (some .load) }
    | some _ => none
  | .advance call spurious =>
    match state.pcs call with
    | none => none
    | some pc => (applyDeltaStep (calls call) spurious state.counter pc).map fun (counter, pc) =>
        ⟨counter, Function.update state.pcs call (some pc)⟩

/-! ### The state: lazily loaded buckets, resets and the sync task -/

/-- `OnceCell<Arc<QuotaBucket>>`. While a task initialises the cell, `get` finds
nothing and `set` fails at once. -/
inductive Cell where
  | empty
  | initialising
  | set (counter : QuotaCounter)
  deriving DecidableEq, Repr

inductive Op where
  | commit (delta : Delta)
  | reset (id : String)
  deriving DecidableEq, Repr

def Op.id : Op → String
  | .commit delta => delta.id
  | .reset id => id

inductive OpPc where
  /-- About to get or insert the cell under the map's lock. -/
  | cell
  /-- Inside `get_or_try_init`, the bucket not seen yet. -/
  | init
  /-- This task runs the initialiser and waits for `get_bytes`. -/
  | loading
  | publishing (bytes : Nat)
  | delta (pc : DeltaPc)
  /-- `reset`: `cell.get()`, then `cell.set(zero)`, then `cell.get()` again. -/
  | resetGet
  | resetSet
  | resetAgain
  /-- `QuotaCounter::reset`: store 0, then set dirty. -/
  | resetStore
  | resetMark
  | done (result : Reply)
  deriving DecidableEq, Repr

inductive SyncPc where
  | idle
  | visit (rest : List String)
  | read (id : String) (rest : List String)
  | persist (id : String) (bytes : Nat) (rest : List String)
  | remark (id : String) (rest : List String)
  deriving DecidableEq, Repr

structure QuotaState (ι : Type) where
  /-- What the tracker has persisted. -/
  tracker : String → Option Nat
  buckets : String → Option Cell
  pcs : ι → Option OpPc
  sync : SyncPc

/-- What the environment decides in one step of an operation. -/
structure Choice where
  spurious : Bool
  loadFails : Bool
  deriving DecidableEq, Repr

inductive StateEvent (ι : Type) where
  | invoke (op : ι)
  | advance (op : ι) (choice : Choice)
  /-- The sync task wakes up and snapshots known ids. -/
  | tick (ids : List String)
  | sync (fails : Bool)
  deriving DecidableEq

def loadError : Error := ⟨.unexpected, "tracker lookup failed", []⟩

def stateStart (tracker : String → Option Nat) : QuotaState ι :=
  ⟨tracker, fun _ => none, fun _ => none, .idle⟩

/-- With the cell in hand, a commit asks for the bucket and a reset looks at the cell. -/
def Op.enter : Op → OpPc
  | .commit _ => .init
  | .reset _ => .resetGet

/-- One step of an operation on the cell of its id: the new cell and position. -/
def opStep (op : Op) (choice : Choice) (persisted : Option Nat) (cell : Option Cell) :
    OpPc → Option (Option Cell × OpPc)
  | .cell => some (some (cell.getD .empty), op.enter)
  | .init =>
    match cell with
    | some .empty => some (some .initialising, .loading)
    | some (.set _) => some (cell, .delta .load)
    | _ => none
  | .loading =>
    if choice.loadFails then some (some .empty, .done (.err loadError))
    else some (cell, .publishing (persisted.getD 0))
  | .publishing bytes => some (some (.set (.new bytes)), .delta .load)
  | .delta pc =>
    match op, cell with
    | .commit delta, some (.set counter) =>
      match applyDeltaStep delta choice.spurious counter pc with
      | some (counter, .returned result) => some (some (.set counter), .done result)
      | some (counter, pc) => some (some (.set counter), .delta pc)
      | none => none
    | _, _ => none
  | .resetGet =>
    match cell with
    | some (.set _) => some (cell, .resetStore)
    | _ => some (cell, .resetSet)
  | .resetSet =>
    match cell with
    | some .empty => some (some (.set ⟨0, true⟩), .done (.ok 0))
    | _ => some (cell, .resetAgain)
  | .resetAgain =>
    match cell with
    | some (.set _) => some (cell, .resetStore)
    | _ => some (cell, .done (.ok 0))
  | .resetStore =>
    match cell with
    | some (.set counter) => some (some (.set { counter with bytes := 0 }), .resetMark)
    | _ => none
  | .resetMark =>
    match cell with
    | some (.set counter) => some (some (.set { counter with dirty := true }), .done (.ok 0))
    | _ => none
  | .done _ => none

/-- One step of `sync_all` after the snapshot of the known ids. -/
def syncStep (fails : Bool) (state : QuotaState ι) : Option (QuotaState ι) :=
  match state.sync with
  | .idle => none
  | .visit [] => some { state with sync := .idle }
  | .visit (id :: rest) =>
    match state.buckets id with
    | some (.set counter) =>
      if counter.dirty then
        some { state with
          buckets := Function.update state.buckets id (some (.set { counter with dirty := false }))
          sync := .read id rest }
      else some { state with sync := .visit rest }
    | _ => some { state with sync := .visit rest }
  | .read id rest =>
    match state.buckets id with
    | some (.set counter) => some { state with sync := .persist id counter.bytes rest }
    | _ => none
  | .persist id bytes rest =>
    if fails then some { state with sync := .remark id rest }
    else some { state with
      tracker := Function.update state.tracker id (some bytes)
      sync := .visit rest }
  | .remark id rest =>
    match state.buckets id with
    | some (.set counter) =>
      some { state with
        buckets := Function.update state.buckets id (some (.set { counter with dirty := true }))
        sync := .visit rest }
    | _ => none

def stateStep (ops : ι → Op) (state : QuotaState ι) : StateEvent ι → Option (QuotaState ι)
  | .invoke op =>
    match state.pcs op with
    | none => some { state with pcs := Function.update state.pcs op (some .cell) }
    | some _ => none
  | .advance op choice =>
    match state.pcs op with
    | none => none
    | some pc =>
      let id := (ops op).id
      (opStep (ops op) choice (state.tracker id) (state.buckets id) pc).map fun (cell, pc) =>
        { state with
          buckets := Function.update state.buckets id cell
          pcs := Function.update state.pcs op (some pc) }
  | .tick ids =>
    if state.sync = .idle then some { state with sync := .visit ids } else none
  | .sync fails => syncStep fails state

end Vaulton.Quota
