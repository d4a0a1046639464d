import Vaulton.Transfer

/-! Vfs_Transfer requests and their jobs beside one another. A request looks at the storage
when it arrives; its job runs later, step by step, between the steps of other jobs. -/

namespace Vaulton.TransferRace
open Vaulton.Lib Vaulton.Config Vaulton.Transfer

inductive Job where
  | waiting
  | rejected (error : Status)
  | running (plan : TransferPlan) (done : Nat) (pc : TransferPc)
  deriving DecidableEq

structure RaceState (ι : Type) where
  storage : Storage
  jobs : ι → Job
  /-- The job that wrote what is now in the file, if one did. -/
  writers : Place → Option ι

inductive RaceEvent (ι : Type) where
  | request (id : ι) (answers : RequestAnswers)
  | job (id : ι) (answer : Answer)

def raceStart {ι : Type} (storage : Storage) : RaceState ι := ⟨storage, fun _ => .waiting, fun _ => none⟩

variable {ι : Type} [DecidableEq ι]

/-- The files that a step has changed were written by its job. -/
def recordWriters (writers : Place → Option ι) (before after : Storage) (id : ι) (place : Place) : Option ι :=
  if nodeAt after place = nodeAt before place then writers place
  else if isFile (nodeAt after place) then some id
  else none

def raceStep (server : Server) (args : ι → TransferArgs) (state : RaceState ι) : RaceEvent ι → Option (RaceState ι)
  | .request id answers =>
    match state.jobs id with
    | .waiting =>
      match vfsTransfer server state.storage answers (args id) with
      | .ok plan => some { state with jobs := Function.update state.jobs id (.running plan 0 .recheck) }
      | .error error => some { state with jobs := Function.update state.jobs id (.rejected error) }
    | .rejected _ | .running _ _ _ => none
  | .job id answer =>
    match state.jobs id with
    | .running plan done pc =>
      (transferStep plan ⟨state.storage, done, pc⟩ answer).map fun next => {
        storage := next.storage
        jobs := Function.update state.jobs id (.running plan next.done next.pc)
        writers := recordWriters state.writers state.storage next.storage id }
    | .waiting | .rejected _ => none

end Vaulton.TransferRace
