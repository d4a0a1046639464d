import Vaulton.Config
import Vaulton.EventBus

/-! Jobs from their registration to their result (`register_job`, `spawn_job`,
`spawn_async_job`, `finish_job` and `get_job` of `ipc/src/server.rs`). `finish_job` works
on two maps and the event channel in separate steps, and GetJob reads the maps one after
the other. -/

namespace Vaulton.JobResults
open Vaulton.Config Vaulton.EventBus

structure JobProgress where
  done : Nat
  total : Nat
  deriving DecidableEq, Repr

structure FinishedJob where
  success : Bool
  error : Text
  done : Nat
  total : Nat
  deriving DecidableEq

/-- `Result<Option<String>, String>`: the snapshot of a backup, or what went wrong. -/
abbrev JobResult := Except Text (Option Text)

inductive SpawnKind where
  /-- `spawn_job`: the body runs inside `catch_unwind`. -/
  | blocking
  /-- `spawn_async_job`: the body is a task of its own. -/
  | async
  deriving DecidableEq, Repr

/-- How a body ends. The text of a panic is that of the task's `JoinError`. -/
inductive BodyEnd where
  | returned (result : JobResult)
  | panicked (joinError : Text)
  deriving DecidableEq

def bodyResult : SpawnKind → BodyEnd → JobResult
  | _, .returned result => result
  | .blocking, .panicked _ => .error "job panicked".toList
  | .async, .panicked joinError => .error ("job panicked: ".toList ++ joinError)

structure JobFinishedEvent where
  jobId : Text
  success : Bool
  error : Option Text
  snapshot : Option Text
  deriving DecidableEq

inductive Payload where
  | finished (event : JobFinishedEvent)
  | message (jobId message : Text)
  | other
  deriving DecidableEq

def errorOf : JobResult → Option Text
  | .ok _ => none
  | .error error => some error

def snapshotOf : JobResult → Option Text
  | .ok snapshot => snapshot
  | .error _ => none

def finishedJob (result : JobResult) (progress : JobProgress) : FinishedJob where
  success := result.isOk
  error := (errorOf result).getD []
  done := progress.done
  total := progress.total

def jobMessage (id : Uuid) (error : Text) : Data Payload := .jobMessage priorityError (.message id.hyphenated error)

def jobFinished (id : Uuid) (result : JobResult) : Data Payload :=
  .jobFinished (.finished ⟨id.hyphenated, result.isOk, errorOf result, snapshotOf result⟩)

/-- A job up to the end of its body, then the steps of `finish_job`. -/
inductive JobPhase where
  | unregistered
  | running (kind : SpawnKind)
  | readProgress (result : JobResult)
  | publish (result : JobResult) (progress : JobProgress)
  | message (result : JobResult)
  | announce (result : JobResult)
  | remove (result : JobResult)
  | finished (result : JobResult)
  deriving DecidableEq

inductive JobState where
  | running
  | succeeded
  | failed
  deriving DecidableEq, Repr

structure JobStatusResponse where
  state : JobState
  doneBytes : Nat
  totalBytes : Nat
  error : Text
  deriving DecidableEq

inductive GetPc where
  | running
  /-- The id was not among the running jobs. -/
  | finished (id : Uuid)
  | answered (response : Except Status JobStatusResponse)
  deriving DecidableEq

structure JobsState (γ : Type) where
  jobs : Uuid → Option JobProgress
  finishedJobs : Uuid → Option FinishedJob
  phases : Uuid → JobPhase
  bus : BusState Payload
  gets : γ → GetPc

inductive JobsEvent (γ : Type) where
  | register (id : Uuid) (kind : SpawnKind)
  | progress (id : Uuid) (progress : JobProgress)
  | bodyEnds (id : Uuid) (how : BodyEnd)
  | finish (id : Uuid)
  | get (call : γ)
  /-- Events of job bodies and everyone else, the bridge and Poll. -/
  | bus (event : BusEvent Payload)

def jobsStart {γ : Type} : JobsState γ where
  jobs := fun _ => none
  finishedJobs := fun _ => none
  phases := fun _ => .unregistered
  bus := busStart
  gets := fun _ => .running

def runningStatus (progress : JobProgress) : JobStatusResponse := ⟨.running, progress.done, progress.total, []⟩

def finishedStatus (job : FinishedJob) : JobStatusResponse :=
  ⟨if job.success then .succeeded else .failed, job.done, job.total, job.error⟩

def jobNotFound (jobId : Text) : Status := ⟨.notFound, s!"job '{jobId.str}' not found (unknown or result expired)"⟩

variable {γ : Type} [DecidableEq γ]

def JobsState.move (state : JobsState γ) (id : Uuid) (phase : JobPhase) : JobsState γ :=
  { state with phases := Function.update state.phases id phase }

def JobsState.answer (state : JobsState γ) (call : γ) (pc : GetPc) : JobsState γ :=
  { state with gets := Function.update state.gets call pc }

/-- One step of `finish_job`. Both of its events are critical, so a full channel makes
it wait. -/
def finishStep (state : JobsState γ) (id : Uuid) : JobPhase → Option (JobsState γ)
  | .unregistered | .running _ | .finished _ => none
  | .readProgress result => some (state.move id (.publish result ((state.jobs id).getD ⟨0, 0⟩)))
  | .publish result progress => some { state.move id (.message result) with
      finishedJobs := Function.update state.finishedJobs id (some (finishedJob result progress)) }
  | .message (.ok snapshot) => some (state.move id (.announce (.ok snapshot)))
  | .message (.error error) =>
    (busStep state.bus (.send (jobMessage id error))).map fun bus =>
      { state.move id (.announce (.error error)) with bus }
  | .announce result =>
    (busStep state.bus (.send (jobFinished id result))).map fun bus => { state.move id (.remove result) with bus }
  | .remove result => some { state.move id (.finished result) with jobs := Function.update state.jobs id none }

/-- One lookup of a GetJob call. -/
def getStep (parse : Text → Except Text Uuid) (jobId : Text) (state : JobsState γ) (call : γ) :
    GetPc → Option (JobsState γ)
  | .running =>
    match parse jobId with
    | .error error => some (state.answer call (.answered (.error ⟨.invalidArgument, s!"bad job_id: {error.str}"⟩)))
    | .ok id =>
      match state.jobs id with
      | some progress => some (state.answer call (.answered (.ok (runningStatus progress))))
      | none => some (state.answer call (.finished id))
  | .finished id =>
    match state.finishedJobs id with
    | some job => some (state.answer call (.answered (.ok (finishedStatus job))))
    | none => some (state.answer call (.answered (.error (jobNotFound jobId))))
  | .answered _ => none

/-- Only `finish_job` sends JobFinished. -/
def isJobFinished : BusEvent Payload → Bool
  | .send (.jobFinished _) => true
  | _ => false

def jobsStep (parse : Text → Except Text Uuid) (args : γ → Text) (state : JobsState γ) :
    JobsEvent γ → Option (JobsState γ)
  | .register id kind =>
    -- `Uuid::new_v4` does not hand out an id twice.
    if state.phases id = .unregistered then
      some { state.move id (.running kind) with jobs := Function.update state.jobs id (some ⟨0, 0⟩) }
    else none
  | .progress id progress =>
    match state.phases id with
    | .running _ => some { state with jobs := Function.update state.jobs id (some progress) }
    | _ => none
  | .bodyEnds id how =>
    match state.phases id with
    | .running kind => some (state.move id (.readProgress (bodyResult kind how)))
    | _ => none
  | .finish id => finishStep state id (state.phases id)
  | .get call => getStep parse (args call) state call (state.gets call)
  | .bus event =>
    if isJobFinished event then none else (busStep state.bus event).map fun bus => { state with bus }

/-- The events of jobs that a step sends. -/
def sends (state : JobsState γ) : JobsEvent γ → Option (Data Payload)
  | .finish id =>
    match state.phases id with
    | .message (.error error) => some (jobMessage id error)
    | .announce result => some (jobFinished id result)
    | _ => none
  | .bus (.send data) => some data
  | _ => none

end Vaulton.JobResults
