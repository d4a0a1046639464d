import Vaulton.Quota

/-! `QuotaState::reset` beside first-touch loads of the same quota id. A load is a
`current_bytes` call: it gets or inserts the cell, initialises it from the tracker or
waits for whoever does, and reads the counter. The steps of a reset are those of the
quota engine. -/

namespace Vaulton.QuotaReset
open Vaulton.Quota

/-- What `tracker.get_bytes` comes back with. -/
inductive Answer where
  | bytes (stored : Nat)
  | notFound
  | failed (error : Error)
  deriving DecidableEq, Repr

inductive LoadPc where
  | cell
  /-- Inside `get_or_try_init`, the bucket not seen yet. -/
  | init
  | loading
  | publishing (bytes : Nat)
  | read
  | done (result : Reply)
  deriving DecidableEq, Repr

/-- One step of `bucket(id)`, followed by the read of the counter. -/
def loadStep (answer : Answer) (cell : Option Cell) : LoadPc → Option (Option Cell × LoadPc)
  | .cell => some (some (cell.getD .empty), .init)
  | .init =>
    match cell with
    | some .empty => some (some .initialising, .loading)
    | some (.set _) => some (cell, .read)
    | _ => none
  | .loading =>
    match answer with
    | .bytes stored => some (cell, .publishing stored)
    | .notFound => some (cell, .publishing 0)
    -- A failed initialiser leaves the cell to the next task.
    | .failed error => some (some .empty, .done (.err error))
  | .publishing bytes => some (some (.set (.new bytes)), .read)
  | .read =>
    match cell with
    | some (.set counter) => some (cell, .done (.ok counter.bytes))
    | _ => none
  | .done _ => none

/-- A `current_bytes` call with nobody else touching the cell. -/
def currentBytes (answer : Answer) : Option Cell → Reply
  | some (.set counter) => .ok counter.bytes
  | _ =>
    match answer with
    | .bytes stored => .ok stored
    | .notFound => .ok 0
    | .failed error => .err error

structure TouchState (ι κ : Type) where
  cell : Option Cell
  loads : ι → Option LoadPc
  resets : κ → Option OpPc

inductive TouchEvent (ι κ : Type) where
  | invokeLoad (load : ι)
  | load (load : ι) (answer : Answer)
  | invokeReset (call : κ)
  | reset (call : κ)
  deriving DecidableEq

/-- The cell with no load in flight: no entry, an entry left empty by a failed load, or
a bucket with whatever was committed before. -/
def restingCell : Option (Option QuotaCounter) → Option Cell
  | none => none
  | some none => some .empty
  | some (some counter) => some (.set counter)

def touchStart {ι κ : Type} (known : Option (Option QuotaCounter)) : TouchState ι κ :=
  ⟨restingCell known, fun _ => none, fun _ => none⟩

variable {ι κ : Type} [DecidableEq ι] [DecidableEq κ]

def touchStep (id : String) (state : TouchState ι κ) : TouchEvent ι κ → Option (TouchState ι κ)
  | .invokeLoad load =>
    match state.loads load with
    | none => some { state with loads := Function.update state.loads load (some .cell) }
    | some _ => none
  | .load load answer =>
    match state.loads load with
    | none => none
    | some pc => (loadStep answer state.cell pc).map fun (cell, pc) =>
        { state with cell, loads := Function.update state.loads load (some pc) }
  | .invokeReset call =>
    match state.resets call with
    | none => some { state with resets := Function.update state.resets call (some .cell) }
    | some _ => none
  | .reset call =>
    match state.resets call with
    | none => none
    | some pc => (opStep (.reset id) ⟨false, false⟩ none state.cell pc).map fun (cell, pc) =>
        { state with cell, resets := Function.update state.resets call (some pc) }

end Vaulton.QuotaReset
