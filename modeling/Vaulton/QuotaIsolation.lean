import Vaulton.DataOps
import Vaulton.QuotaReset

/-! One `QuotaState` shared by the points of all users: any number of commits, deletes and
resets, of `current_bytes` calls, and the sync task, each on the quota id it is given. -/

namespace Vaulton.QuotaIsolation
open Vaulton.Config Vaulton.Quota Vaulton.QuotaReset

structure SharedState (ι κ : Type) where
  quota : QuotaState ι
  /-- `current_bytes` calls, `none` until they are made. -/
  loads : κ → Option LoadPc

inductive SharedEvent (ι κ : Type) where
  | quota (event : StateEvent ι)
  | invokeLoad (load : κ)
  | load (load : κ) (fails : Bool)
  deriving DecidableEq

/-- `tracker.get_bytes`. -/
def trackerAnswer (fails : Bool) (persisted : Option Nat) : Answer :=
  if fails then .failed loadError
  else
    match persisted with
    | some stored => .bytes stored
    | none => .notFound

def sharedStart {ι κ : Type} (tracker : String → Option Nat) : SharedState ι κ := ⟨stateStart tracker, fun _ => none⟩

variable {ι κ : Type} [DecidableEq ι] [DecidableEq κ]

/-- `touched` are the ids the `current_bytes` calls are made with. -/
def sharedStep (ops : ι → Op) (touched : κ → String) (state : SharedState ι κ) :
    SharedEvent ι κ → Option (SharedState ι κ)
  | .quota event => (stateStep ops state.quota event).map fun quota => { state with quota }
  | .invokeLoad load =>
    match state.loads load with
    | none => some { state with loads := Function.update state.loads load (some .cell) }
    | some _ => none
  | .load load fails =>
    match state.loads load with
    | none => none
    | some pc =>
      let id := touched load
      (loadStep (trackerAnswer fails (state.quota.tracker id)) (state.quota.buckets id) pc).map fun (cell, pc) =>
        { quota := { state.quota with buckets := Function.update state.quota.buckets id cell }
          loads := Function.update state.loads load (some pc) }

/-- The id the sync task is about to look at or is working on. -/
def syncId : SyncPc → Option String
  | .idle | .visit [] => none
  | .visit (id :: _) | .read id _ | .persist id _ _ | .remark id _ => some id

/-- The quota id that an event is an operation on. -/
def operatesOn (ops : ι → Op) (touched : κ → String) (state : SharedState ι κ) : SharedEvent ι κ → Option String
  | .quota (.invoke op) | .quota (.advance op _) => some (ops op).id
  | .quota (.tick _) => none
  | .quota (.sync _) => syncId state.quota.sync
  | .invokeLoad load | .load load _ => some (touched load)

end Vaulton.QuotaIsolation
