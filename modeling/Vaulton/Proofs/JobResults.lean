import Vaulton.JobResults
import Vaulton.Lib.Machine
import Vaulton.Proofs.Config
import Vaulton.Proofs.EventBus

/-! What GetJob may answer while `finish_job` publishes a result, announces it and takes
the job off the running ones. -/

namespace Vaulton.Proofs.JobResults
open Vaulton.Config Vaulton.Lib Vaulton.EventBus Vaulton.JobResults
open Vaulton.Proofs.Config (hyphenated_injective)

variable {γ : Type} {state next final : JobsState γ} {parse : Text → Except Text Uuid} {args : γ → Text}

/-! ### The maps and the phase of a job -/

/-- What the two maps hold for a job in each of its phases. -/
def Fits (job : Option JobProgress) (finished : Option FinishedJob) : JobPhase → Prop
  | .unregistered => finished = none
  | .running _ | .readProgress _ | .publish _ _ => job.isSome ∧ finished = none
  | .message result | .announce result | .remove result =>
    job.isSome ∧ ∃ progress, finished = some (finishedJob result progress)
  | .finished result => job = none ∧ ∃ progress, finished = some (finishedJob result progress)

/-- The result a phase works on. -/
def resultOf : JobPhase → Option JobResult
  | .unregistered | .running _ => none
  | .readProgress result | .publish result _ | .message result | .announce result | .remove result | .finished result =>
    some result

/-- The phases that follow each other, with what is announced in between. -/
inductive Follows (id : Uuid) : JobPhase → JobPhase → Option (Data Payload) → Prop where
  | register (kind) : Follows id .unregistered (.running kind) none
  | progress (kind) : Follows id (.running kind) (.running kind) none
  | bodyEnds (kind how) : Follows id (.running kind) (.readProgress (bodyResult kind how)) none
  | readProgress (result progress) : Follows id (.readProgress result) (.publish result progress) none
  | publish (result progress) : Follows id (.publish result progress) (.message result) none
  | quiet (snapshot) : Follows id (.message (.ok snapshot)) (.announce (.ok snapshot)) none
  | message (error) : Follows id (.message (.error error)) (.announce (.error error)) (some (jobMessage id error))
  | announce (result) : Follows id (.announce result) (.remove result) (some (jobFinished id result))
  | remove (result) : Follows id (.remove result) (.finished result) none

/-- A step that moves one job on, and nothing of the others. -/
structure Moves (state next : JobsState γ) (id : Uuid) (sent : Option (Data Payload)) : Prop where
  follows : Follows id (state.phases id) (next.phases id) sent
  phases : ∀ other, other ≠ id → next.phases other = state.phases other
  jobs : ∀ other, other ≠ id → next.jobs other = state.jobs other
  finishedJobs : ∀ other, other ≠ id → next.finishedJobs other = state.finishedJobs other
  fits : Fits (state.jobs id) (state.finishedJobs id) (state.phases id) →
    Fits (next.jobs id) (next.finishedJobs id) (next.phases id)
  gets : next.gets = state.gets

/-- A step that leaves the jobs alone. -/
structure Stays (state next : JobsState γ) : Prop where
  phases : next.phases = state.phases
  jobs : next.jobs = state.jobs
  finishedJobs : next.finishedJobs = state.finishedJobs

theorem finishStep_moves {id : Uuid} (taken : finishStep state id (state.phases id) = some next) :
    Moves state next id (sends state (.finish id)) := by
  cases phase : state.phases id with
  | unregistered | running kind | finished result =>
    rw [phase] at taken
    cases taken
  | readProgress result =>
    rw [phase] at taken
    cases taken
    refine ⟨?_, fun _ different => Function.update_of_ne different _ _, fun _ _ => rfl, fun _ _ => rfl, ?_, rfl⟩
    · simpa [JobsState.move, phase, sends] using Follows.readProgress _ _
    · simp [JobsState.move, phase, Fits]
  | publish result progress =>
    rw [phase] at taken
    cases taken
    refine ⟨?_, fun _ different => Function.update_of_ne different _ _, fun _ _ => rfl,
      fun _ different => Function.update_of_ne different _ _, ?_, rfl⟩
    · simpa [JobsState.move, phase, sends] using Follows.publish _ _
    · simp only [JobsState.move, phase, Fits, Function.update_self]
      rintro ⟨present, -⟩
      exact ⟨present, progress, rfl⟩
  | message result =>
    rw [phase] at taken
    cases result with
    | ok snapshot =>
      cases taken
      refine ⟨?_, fun _ different => Function.update_of_ne different _ _, fun _ _ => rfl, fun _ _ => rfl, ?_, rfl⟩
      · simpa [JobsState.move, phase, sends] using Follows.quiet _
      · simp [JobsState.move, phase, Fits]
    | error error =>
      obtain ⟨bus, -, rfl⟩ := Option.map_eq_some_iff.mp taken
      refine ⟨?_, fun _ different => Function.update_of_ne different _ _, fun _ _ => rfl, fun _ _ => rfl, ?_, rfl⟩
      · simpa [JobsState.move, phase, sends] using Follows.message _
      · simp [JobsState.move, phase, Fits]
  | announce result =>
    rw [phase] at taken
    obtain ⟨bus, -, rfl⟩ := Option.map_eq_some_iff.mp taken
    refine ⟨?_, fun _ different => Function.update_of_ne different _ _, fun _ _ => rfl, fun _ _ => rfl, ?_, rfl⟩
    · simpa [JobsState.move, phase, sends] using Follows.announce _
    · simp [JobsState.move, phase, Fits]
  | remove result =>
    rw [phase] at taken
    cases taken
    refine ⟨?_, fun _ different => Function.update_of_ne different _ _,
      fun _ different => Function.update_of_ne different _ _, fun _ _ => rfl, ?_, rfl⟩
    · simpa [JobsState.move, phase, sends] using Follows.remove _
    · simp only [JobsState.move, phase, Fits, Function.update_self]
      rintro ⟨-, published⟩
      exact ⟨trivial, published⟩

variable [DecidableEq γ]

/-- The job that an event is about. -/
def jobOf : JobsEvent γ → Option Uuid
  | .register id _ | .progress id _ | .bodyEnds id _ | .finish id => some id
  | .get _ | .bus _ => none

theorem step_moves {event : JobsEvent γ} {id : Uuid} (about : jobOf event = some id)
    (taken : jobsStep parse args state event = some next) : Moves state next id (sends state event) := by
  cases event with
  | register other kind =>
    cases about
    simp only [jobsStep] at taken
    split at taken
    next fresh =>
      cases taken
      refine ⟨?_, fun _ different => Function.update_of_ne different _ _,
        fun _ different => Function.update_of_ne different _ _, fun _ _ => rfl, ?_, rfl⟩
      · simpa [JobsState.move, fresh, sends] using Follows.register _
      · simp [JobsState.move, fresh, Fits]
    next => cases taken
  | progress other progress =>
    cases about
    simp only [jobsStep] at taken
    split at taken
    next kind running =>
      cases taken
      refine ⟨?_, fun _ _ => rfl, fun _ different => Function.update_of_ne different _ _, fun _ _ => rfl, ?_, rfl⟩
      · simpa [running, sends] using Follows.progress _
      · simp [running, Fits]
    next => cases taken
  | bodyEnds other how =>
    cases about
    simp only [jobsStep] at taken
    split at taken
    next kind running =>
      cases taken
      refine ⟨?_, fun _ different => Function.update_of_ne different _ _, fun _ _ => rfl, fun _ _ => rfl, ?_, rfl⟩
      · simpa [JobsState.move, running, sends] using Follows.bodyEnds _ _
      · simp [JobsState.move, running, Fits]
    next => cases taken
  | finish other =>
    cases about
    exact finishStep_moves taken
  | get call => cases about
  | bus event => cases about

theorem step_stays {event : JobsEvent γ} (about : jobOf event = none)
    (taken : jobsStep parse args state event = some next) : Stays state next := by
  cases event with
  | get call =>
    simp only [jobsStep] at taken
    cases pc : state.gets call with
    | running | finished id =>
      rw [pc] at taken
      simp only [getStep] at taken
      repeat' split at taken
      all_goals
        cases taken
        exact ⟨rfl, rfl, rfl⟩
    | answered response =>
      rw [pc] at taken
      cases taken
  | bus event =>
    simp only [jobsStep] at taken
    split at taken
    next => cases taken
    next =>
      obtain ⟨bus, -, rfl⟩ := Option.map_eq_some_iff.mp taken
      exact ⟨rfl, rfl, rfl⟩
  | register id kind | progress id progress | bodyEnds id how | finish id => cases about

/-- What a job has come to is kept: its registration, its result and its end. -/
def Registered (phase : JobPhase) : Prop := phase ≠ .unregistered

theorem Follows.registered {id : Uuid} {phase later : JobPhase} {sent : Option (Data Payload)}
    (follows : Follows id phase later sent) : Registered later := by
  cases follows <;> simp [Registered]

theorem Follows.result {id : Uuid} {phase later : JobPhase} {sent : Option (Data Payload)} {result : JobResult}
    (follows : Follows id phase later sent) (known : resultOf phase = some result) : resultOf later = some result := by
  cases follows <;> first | exact known | cases known

theorem phase_kept (property : JobPhase → Prop)
    (kept : ∀ id phase later sent, Follows id phase later sent → property phase → property later)
    {event : JobsEvent γ} {id : Uuid} (holds : property (state.phases id))
    (taken : jobsStep parse args state event = some next) : property (next.phases id) := by
  cases about : jobOf event with
  | none =>
    rw [(step_stays about taken).phases]
    exact holds
  | some moved =>
    have moves := step_moves about taken
    by_cases same : id = moved
    · subst same
      exact kept _ _ _ _ moves.follows holds
    · rwa [moves.phases id same]

def Consistent (state : JobsState γ) : Prop := ∀ id, Fits (state.jobs id) (state.finishedJobs id) (state.phases id)

theorem Consistent.step {event : JobsEvent γ} (consistent : Consistent state)
    (taken : jobsStep parse args state event = some next) : Consistent next := by
  intro id
  cases about : jobOf event with
  | none =>
    have stays := step_stays about taken
    rw [stays.phases, stays.jobs, stays.finishedJobs]
    exact consistent id
  | some moved =>
    have moves := step_moves about taken
    by_cases same : id = moved
    · subst same
      exact moves.fits (consistent id)
    · rw [moves.phases id same, moves.jobs id same, moves.finishedJobs id same]
      exact consistent id

theorem consistent_of_run {events : List (JobsEvent γ)}
    (executed : run (jobsStep parse args) jobsStart events = some final) : Consistent final := by
  have kept : ∀ state event next, Consistent state → jobsStep parse args state event = some next → Consistent next :=
    fun _ _ _ consistent taken => consistent.step taken
  have initial : Consistent (jobsStart : JobsState γ) := fun _ => rfl
  exact run_invariant Consistent kept initial executed

/-! ### Lookups -/

def statusOf (result : JobResult) : JobState := if result.isOk then .succeeded else .failed

/-- The answer to a GetJob tells a result. -/
def Reports (answer : JobStatusResponse) (result : JobResult) : Prop :=
  answer.state = statusOf result ∧ answer.error = (errorOf result).getD []

theorem finishedStatus_reports (result : JobResult) (progress : JobProgress) :
    Reports (finishedStatus (finishedJob result progress)) result := ⟨rfl, rfl⟩

theorem lookup_hits {job : Option JobProgress} {finished : Option FinishedJob} {phase : JobPhase}
    (fits : Fits job finished phase) (absent : job = none) (registered : Registered phase) :
    ∃ result, phase = .finished result := by
  cases phase with
  | unregistered => exact (registered rfl).elim
  | finished result => exact ⟨result, rfl⟩
  | running _ | readProgress _ | publish _ _ | message _ | announce _ | remove _ =>
    rw [absent] at fits
    cases fits.1

theorem lookup_reports {job : Option JobProgress} {finished : FinishedJob} {phase : JobPhase}
    (fits : Fits job (some finished) phase) : ∃ result, resultOf phase = some result ∧ Reports (finishedStatus finished) result := by
  cases phase with
  | unregistered => cases fits
  | running _ | readProgress _ | publish _ _ => cases fits.2
  | message result | announce result | remove result | finished result =>
    obtain ⟨-, progress, same⟩ := fits
    cases same
    exact ⟨result, rfl, finishedStatus_reports result progress⟩

theorem get_cases {call : γ} (taken : jobsStep parse args state (.get call) = some next) :
    ∃ pc, next = state.answer call pc ∧
      match state.gets call with
      | .running =>
        (∃ error status, parse (args call) = .error error ∧ pc = .answered (.error status)) ∨
        ∃ id, parse (args call) = .ok id ∧
          ((∃ progress, state.jobs id = some progress ∧ pc = .answered (.ok (runningStatus progress))) ∨
            state.jobs id = none ∧ pc = .finished id)
      | .finished id =>
        (∃ job, state.finishedJobs id = some job ∧ pc = .answered (.ok (finishedStatus job))) ∨
          state.finishedJobs id = none ∧ pc = .answered (.error (jobNotFound (args call)))
      | .answered _ => False := by
  simp only [jobsStep] at taken
  cases at_pc : state.gets call with
  | running =>
    rw [at_pc] at taken
    simp only [getStep] at taken
    split at taken
    next error bad =>
      cases taken
      exact ⟨_, rfl, .inl ⟨error, _, bad, rfl⟩⟩
    next id good =>
      split at taken
      next progress present =>
        cases taken
        exact ⟨_, rfl, .inr ⟨id, good, .inl ⟨progress, present, rfl⟩⟩⟩
      next absent =>
        cases taken
        exact ⟨_, rfl, .inr ⟨id, good, .inr ⟨absent, rfl⟩⟩⟩
  | finished id =>
    rw [at_pc] at taken
    simp only [getStep] at taken
    split at taken
    next job present =>
      cases taken
      exact ⟨_, rfl, .inl ⟨job, present, rfl⟩⟩
    next absent =>
      cases taken
      exact ⟨_, rfl, .inr ⟨absent, rfl⟩⟩
  | answered response =>
    rw [at_pc] at taken
    cases taken

theorem gets_elsewhere {event : JobsEvent γ} {call : γ} (different : event ≠ .get call)
    (taken : jobsStep parse args state event = some next) : next.gets call = state.gets call := by
  cases about : jobOf event with
  | some id => rw [(step_moves about taken).gets]
  | none =>
    cases event with
    | get other =>
      obtain ⟨pc, rfl, -⟩ := get_cases taken
      have other_call : call ≠ other := by
        rintro rfl
        exact different rfl
      exact Function.update_of_ne other_call _ _
    | bus event =>
      simp only [jobsStep] at taken
      split at taken
      next => cases taken
      next =>
        obtain ⟨bus, -, rfl⟩ := Option.map_eq_some_iff.mp taken
        rfl
    | register id kind | progress id progress | bodyEnds id how | finish id => cases about

/-- A call that was made when the job was registered never misses it, and hears of its
result only once the job is off the running ones. -/
def OnTrack (id : Uuid) (phase : JobPhase) : GetPc → Prop
  | .running => True
  | .finished other => other = id ∧ ∃ result, phase = .finished result
  | .answered (.ok answer) => answer.state ≠ .running → ∃ result, phase = .finished result ∧ Reports answer result
  | .answered (.error _) => False

theorem finished_kept {event : JobsEvent γ} {id : Uuid} {result : JobResult} (ended : state.phases id = .finished result)
    (taken : jobsStep parse args state event = some next) : next.phases id = .finished result := by
  refine phase_kept (fun phase => phase = .finished result) ?_ ended taken
  rintro id phase later sent follows rfl
  cases follows

theorem OnTrack.later {event : JobsEvent γ} {id : Uuid} {pc : GetPc} (onTrack : OnTrack id (state.phases id) pc)
    (taken : jobsStep parse args state event = some next) : OnTrack id (next.phases id) pc := by
  cases pc with
  | running => trivial
  | finished other =>
    obtain ⟨same, result, ended⟩ := onTrack
    exact ⟨same, result, finished_kept ended taken⟩
  | answered response =>
    cases response with
    | error status => exact onTrack
    | ok answer =>
      intro told
      obtain ⟨result, ended, reports⟩ := onTrack told
      exact ⟨result, finished_kept ended taken, reports⟩

theorem OnTrack.step {event : JobsEvent γ} {call : γ} {id : Uuid} (consistent : Consistent state)
    (registered : Registered (state.phases id)) (asks : parse (args call) = .ok id)
    (onTrack : OnTrack id (state.phases id) (state.gets call)) (taken : jobsStep parse args state event = some next) :
    OnTrack id (next.phases id) (next.gets call) := by
  by_cases own : event = .get call
  · subst own
    obtain ⟨pc, rfl, moved⟩ := get_cases taken
    simp only [JobsState.answer, Function.update_self]
    cases at_pc : state.gets call with
    | running =>
      rw [at_pc] at moved
      rcases moved with ⟨error, status, bad, -⟩ | ⟨other, good, moved⟩
      · rw [asks] at bad
        cases bad
      · cases asks.symm.trans good
        rcases moved with ⟨progress, -, rfl⟩ | ⟨absent, rfl⟩
        · intro told
          exact (told rfl).elim
        · exact ⟨rfl, lookup_hits (consistent id) absent registered⟩
    | finished other =>
      rw [at_pc] at moved onTrack
      obtain ⟨rfl, result, ended⟩ := onTrack
      have fits := consistent other
      rw [ended] at fits
      obtain ⟨-, progress, published⟩ := fits
      rcases moved with ⟨job, present, rfl⟩ | ⟨absent, -⟩
      · intro told
        cases present.symm.trans published
        exact ⟨result, ended, finishedStatus_reports result progress⟩
      · rw [published] at absent
        cases absent
    | answered response =>
      rw [at_pc] at moved
      exact moved.elim
  · rw [gets_elsewhere own taken]
    exact onTrack.later taken

theorem onTrack_of_run {middle : JobsState γ} {after : List (JobsEvent γ)} {call : γ} {id : Uuid}
    (consistent : Consistent middle) (registered : Registered (middle.phases id)) (asks : parse (args call) = .ok id)
    (onTrack : OnTrack id (middle.phases id) (middle.gets call))
    (executed : run (jobsStep parse args) middle after = some final) : OnTrack id (final.phases id) (final.gets call) := by
  have kept : ∀ state event next,
      (Consistent state ∧ Registered (state.phases id) ∧ OnTrack id (state.phases id) (state.gets call)) →
      jobsStep parse args state event = some next →
      Consistent next ∧ Registered (next.phases id) ∧ OnTrack id (next.phases id) (next.gets call) := by
    intro state event next ⟨consistent, registered, onTrack⟩ taken
    exact ⟨consistent.step taken, phase_kept Registered (fun _ _ _ _ follows _ => follows.registered) registered taken,
      onTrack.step consistent registered asks taken⟩
  exact (run_invariant _ kept ⟨consistent, registered, onTrack⟩ executed).2.2

/-- A call that answers after the job is off the running ones tells its result. -/
def Settled (id : Uuid) (result : JobResult) : GetPc → Prop
  | .running => True
  | .finished other => other = id
  | .answered (.ok answer) => Reports answer result
  | .answered (.error _) => False

theorem Settled.step {event : JobsEvent γ} {call : γ} {id : Uuid} {result : JobResult} (consistent : Consistent state)
    (ended : state.phases id = .finished result) (asks : parse (args call) = .ok id)
    (settled : Settled id result (state.gets call)) (taken : jobsStep parse args state event = some next) :
    Settled id result (next.gets call) := by
  by_cases own : event = .get call
  · subst own
    have fits := consistent id
    rw [ended] at fits
    obtain ⟨gone, progress, published⟩ := fits
    obtain ⟨pc, rfl, moved⟩ := get_cases taken
    simp only [JobsState.answer, Function.update_self]
    cases at_pc : state.gets call with
    | running =>
      rw [at_pc] at moved
      rcases moved with ⟨error, status, bad, -⟩ | ⟨other, good, moved⟩
      · rw [asks] at bad
        cases bad
      · cases asks.symm.trans good
        rcases moved with ⟨progress, present, -⟩ | ⟨-, rfl⟩
        · rw [gone] at present
          cases present
        · rfl
    | finished other =>
      rw [at_pc] at moved settled
      cases settled
      rcases moved with ⟨job, present, rfl⟩ | ⟨absent, -⟩
      · cases present.symm.trans published
        exact finishedStatus_reports result progress
      · rw [published] at absent
        cases absent
    | answered response =>
      rw [at_pc] at moved
      exact moved.elim
  · rwa [gets_elsewhere own taken]

theorem settled_of_run {middle : JobsState γ} {after : List (JobsEvent γ)} {call : γ} {id : Uuid} {result : JobResult}
    (consistent : Consistent middle) (ended : middle.phases id = .finished result) (asks : parse (args call) = .ok id)
    (settled : Settled id result (middle.gets call)) (executed : run (jobsStep parse args) middle after = some final) :
    Settled id result (final.gets call) := by
  have kept : ∀ state event next,
      (Consistent state ∧ state.phases id = .finished result ∧ Settled id result (state.gets call)) →
      jobsStep parse args state event = some next →
      Consistent next ∧ next.phases id = .finished result ∧ Settled id result (next.gets call) := by
    intro state event next ⟨consistent, ended, settled⟩ taken
    exact ⟨consistent.step taken, finished_kept ended taken, settled.step consistent ended asks taken⟩
  exact (run_invariant _ kept ⟨consistent, ended, settled⟩ executed).2.2

/-- What every call knows: the id it was sent with, and a result that the job came to. -/
def Informed (parse : Text → Except Text Uuid) (args : γ → Text) (phases : Uuid → JobPhase) (call : γ) : GetPc → Prop
  | .running | .answered (.error _) => True
  | .finished id => parse (args call) = .ok id
  | .answered (.ok answer) => answer.state ≠ .running → ∃ id result, parse (args call) = .ok id ∧
      resultOf (phases id) = some result ∧ Reports answer result

theorem result_kept {event : JobsEvent γ} {id : Uuid} {result : JobResult} (known : resultOf (state.phases id) = some result)
    (taken : jobsStep parse args state event = some next) : resultOf (next.phases id) = some result :=
  phase_kept (fun phase => resultOf phase = some result) (fun _ _ _ _ follows => follows.result) known taken

theorem Informed.later {event : JobsEvent γ} {call : γ} {pc : GetPc} (informed : Informed parse args state.phases call pc)
    (taken : jobsStep parse args state event = some next) : Informed parse args next.phases call pc := by
  cases pc with
  | running => trivial
  | finished id => exact informed
  | answered response =>
    cases response with
    | error status => trivial
    | ok answer =>
      intro told
      obtain ⟨id, result, asks, known, reports⟩ := informed told
      exact ⟨id, result, asks, result_kept known taken, reports⟩

theorem Informed.step {event : JobsEvent γ} {call : γ} (consistent : Consistent state)
    (informed : Informed parse args state.phases call (state.gets call))
    (taken : jobsStep parse args state event = some next) : Informed parse args next.phases call (next.gets call) := by
  by_cases own : event = .get call
  · subst own
    obtain ⟨pc, rfl, moved⟩ := get_cases taken
    simp only [JobsState.answer, Function.update_self]
    cases at_pc : state.gets call with
    | running =>
      rw [at_pc] at moved
      rcases moved with ⟨error, status, -, rfl⟩ | ⟨id, good, ⟨progress, -, rfl⟩ | ⟨-, rfl⟩⟩
      · trivial
      · intro told
        exact (told rfl).elim
      · exact good
    | finished id =>
      rw [at_pc] at moved informed
      rcases moved with ⟨job, present, rfl⟩ | ⟨-, rfl⟩
      · intro told
        have fits := consistent id
        rw [present] at fits
        obtain ⟨result, known, reports⟩ := lookup_reports fits
        exact ⟨id, result, informed, known, reports⟩
      · trivial
    | answered response =>
      rw [at_pc] at moved
      exact moved.elim
  · rw [gets_elsewhere own taken]
    exact informed.later taken

theorem informed_of_run {events : List (JobsEvent γ)} (executed : run (jobsStep parse args) jobsStart events = some final)
    (call : γ) : Informed parse args final.phases call (final.gets call) := by
  have kept : ∀ before state event next, run (jobsStep parse args) jobsStart before = some state →
      Informed parse args state.phases call (state.gets call) → jobsStep parse args state event = some next →
      Informed parse args next.phases call (next.gets call) := by
    intro before state event next reached informed taken
    exact informed.step (consistent_of_run reached) taken
  have initial : Informed parse args (jobsStart : JobsState γ).phases call .running := trivial
  exact run_history (fun _ state => Informed parse args state.phases call (state.gets call)) initial kept executed

/-! ### Announcements -/

/-- The JobFinished event of a job with this id, if the event is one. -/
def announcementOf (id : Uuid) : Data Payload → Option JobFinishedEvent
  | .jobFinished (.finished event) => if event.jobId = id.hyphenated then some event else none
  | _ => none

/-- The JobFinished events that a run has sent for the job. -/
def announcements (parse : Text → Except Text Uuid) (args : γ → Text) (events : List (JobsEvent γ)) (id : Uuid) :
    List JobFinishedEvent :=
  (collect (jobsStep parse args) sends jobsStart events).filterMap (announcementOf id)

/-- The event that announces a result. -/
def finishedEvent (id : Uuid) (result : JobResult) : JobFinishedEvent :=
  ⟨id.hyphenated, result.isOk, errorOf result, snapshotOf result⟩

/-- What has been announced of a job in each of its phases. -/
def announced (id : Uuid) : JobPhase → List JobFinishedEvent
  | .remove result | .finished result => [finishedEvent id result]
  | .unregistered | .running _ | .readProgress _ | .publish _ _ | .message _ | .announce _ => []

theorem announcementOf_jobFinished (id other : Uuid) (result : JobResult) :
    announcementOf id (jobFinished other result) = if other = id then some (finishedEvent id result) else none := by
  simp only [announcementOf, jobFinished]
  by_cases same : other = id
  · subst same
    rw [if_pos rfl, if_pos rfl]
    rfl
  · rw [if_neg fun equal => same (hyphenated_injective equal), if_neg same]

theorem Follows.announced {id : Uuid} {phase later : JobPhase} {sent : Option (Data Payload)}
    (follows : Follows id phase later sent) :
    JobResults.announced id later = JobResults.announced id phase ++ sent.toList.filterMap (announcementOf id) := by
  cases follows with
  | announce result =>
    simp [JobResults.announced, announcementOf_jobFinished]
  | _ => rfl

theorem Follows.elsewhere {id other : Uuid} {phase later : JobPhase} {sent : Option (Data Payload)}
    (follows : Follows other phase later sent) (different : id ≠ other) :
    sent.toList.filterMap (announcementOf id) = [] := by
  cases follows with
  | announce result =>
    simp [announcementOf_jobFinished, Ne.symm different]
  | _ => rfl

theorem announced_step {event : JobsEvent γ} (id : Uuid) (taken : jobsStep parse args state event = some next) :
    announced id (next.phases id) =
      announced id (state.phases id) ++ (sends state event).toList.filterMap (announcementOf id) := by
  cases about : jobOf event with
  | some moved =>
    have moves := step_moves about taken
    by_cases same : id = moved
    · subst same
      exact moves.follows.announced
    · rw [moves.phases id same, moves.follows.elsewhere same, List.append_nil]
  | none =>
    rw [(step_stays about taken).phases]
    cases event with
    | get call => simp [sends]
    | bus event =>
      cases event with
      | send data =>
        cases data with
        | jobFinished payload => cases taken
        | _ => simp [sends, announcementOf]
      | recv | attempt | poll => simp [sends]
    | register id kind | progress id progress | bodyEnds id how | finish id => cases about

theorem announcements_eq {events : List (JobsEvent γ)} (executed : run (jobsStep parse args) jobsStart events = some final)
    (id : Uuid) : announcements parse args events id = announced id (final.phases id) := by
  have kept : ∀ before state event next, run (jobsStep parse args) jobsStart before = some state →
      announcements parse args before id = announced id (state.phases id) → jobsStep parse args state event = some next →
      announcements parse args (before ++ [event]) id = announced id (next.phases id) := by
    intro before state event next reached known taken
    rw [announced_step id taken, ← known, announcements, collect_concat reached taken, List.filterMap_append]
    rfl
  exact run_history (fun events state => announcements parse args events id = announced id (state.phases id)) rfl kept executed

/-! ### finish_job gets done -/

theorem bus_cases {event : JobsEvent γ} (taken : jobsStep parse args state event = some next) :
    next.bus = state.bus ∨ ∃ sent, busStep state.bus sent = some next.bus := by
  cases event with
  | register id kind | progress id progress | bodyEnds id how =>
    simp only [jobsStep] at taken
    split at taken <;> cases taken
    exact .inl rfl
  | finish id =>
    simp only [jobsStep] at taken
    cases phase : state.phases id with
    | unregistered | running kind | finished result | readProgress result | publish result progress | remove result =>
      rw [phase] at taken
      cases taken
      try exact .inl rfl
    | message result =>
      rw [phase] at taken
      cases result with
      | ok snapshot =>
        cases taken
        exact .inl rfl
      | error error =>
        obtain ⟨bus, moved, rfl⟩ := Option.map_eq_some_iff.mp taken
        exact .inr ⟨_, moved⟩
    | announce result =>
      rw [phase] at taken
      obtain ⟨bus, moved, rfl⟩ := Option.map_eq_some_iff.mp taken
      exact .inr ⟨_, moved⟩
  | get call =>
    obtain ⟨pc, rfl, -⟩ := get_cases taken
    exact .inl rfl
  | bus event =>
    simp only [jobsStep] at taken
    split at taken
    next => cases taken
    next =>
      obtain ⟨bus, moved, rfl⟩ := Option.map_eq_some_iff.mp taken
      exact .inr ⟨event, moved⟩

theorem bounded_step {event : JobsEvent γ} (bounded : Proofs.EventBus.Bounded state.bus)
    (taken : jobsStep parse args state event = some next) : Proofs.EventBus.Bounded next.bus := by
  rcases bus_cases taken with same | ⟨event, moved⟩
  · rwa [same]
  · exact bounded.step moved

/-- The bridge and Poll go on beside the jobs. -/
theorem run_bus {events : List (BusEvent Payload)} {bus : BusState Payload}
    (receiving : ∀ event ∈ events, Proofs.EventBus.receives event = true) (executed : run busStep state.bus events = some bus) :
    run (jobsStep parse args) state (events.map .bus) = some { state with bus } := by
  induction events generalizing state with
  | nil =>
    cases executed
    rfl
  | cons event rest ih =>
    obtain ⟨middle, taken, later⟩ := run_cons.mp executed
    have other : isJobFinished event = false := by
      have receives := receiving event List.mem_cons_self
      cases event <;> first | rfl | cases receives
    rw [List.map_cons, run_cons]
    refine ⟨{ state with bus := middle }, by simp [jobsStep, other, taken], ?_⟩
    exact ih (fun event member => receiving event (List.mem_cons_of_mem _ member)) later

theorem finish_enabled {id : Uuid} {result : JobResult} (ended : resultOf (state.phases id) = some result)
    (open_job : state.phases id ≠ .finished result) (room : state.bus.channel.length < capacity) :
    ∃ next, jobsStep parse args state (.finish id) = some next := by
  simp only [jobsStep]
  cases phase : state.phases id with
  | unregistered | running kind =>
    rw [phase] at ended
    cases ended
  | finished other =>
    rw [phase] at ended open_job
    cases ended
    exact (open_job rfl).elim
  | readProgress other | publish other progress | remove other => exact ⟨_, rfl⟩
  | message other =>
    cases other with
    | ok snapshot => exact ⟨_, rfl⟩
    | error error => exact ⟨_, by rw [finishStep, busStep, if_pos room]; rfl⟩
  | announce other => exact ⟨_, by rw [finishStep, busStep, if_pos room]; rfl⟩

/-- The steps that `finish_job` has left. -/
def remaining : JobPhase → Nat
  | .unregistered | .running _ => 6
  | .readProgress _ => 5
  | .publish _ _ => 4
  | .message _ => 3
  | .announce _ => 2
  | .remove _ => 1
  | .finished _ => 0

theorem Follows.remaining {id : Uuid} {phase later : JobPhase} {sent : Option (Data Payload)} {result : JobResult}
    (follows : Follows id phase later sent) (ended : resultOf phase = some result) :
    JobResults.remaining later < JobResults.remaining phase := by
  cases follows with
  | register kind | progress kind | bodyEnds kind how => cases ended
  | _ => simp [JobResults.remaining]

/-- A job whose body has ended can always be finished. -/
theorem finish_reachable {id : Uuid} {result : JobResult} (bounded : Proofs.EventBus.Bounded state.bus)
    (ended : resultOf (state.phases id) = some result) :
    ∃ more last, run (jobsStep parse args) state more = some last ∧ last.phases id = .finished result := by
  induction left : remaining (state.phases id) using Nat.strong_induction_on generalizing state with
  | _ left ih =>
    by_cases done : state.phases id = .finished result
    · exact ⟨[], state, rfl, done⟩
    · obtain ⟨drain, bus, receiving, drained, room⟩ := Proofs.EventBus.room_reachable bounded
      have waited : run (jobsStep parse args) state (drain.map .bus) = some { state with bus } := run_bus receiving drained
      have enabled : ∃ next, jobsStep parse args { state with bus } (.finish id) = some next :=
        finish_enabled ended done room
      obtain ⟨next, taken⟩ := enabled
      have moves := step_moves rfl taken
      have kept : Proofs.EventBus.Bounded bus :=
        run_invariant Proofs.EventBus.Bounded (fun _ _ _ bounded moved => bounded.step moved) bounded drained
      obtain ⟨more, last, executed, finished⟩ :=
        ih _ (left ▸ moves.follows.remaining ended) (bounded_step kept taken) (moves.follows.result ended) rfl
      exact ⟨drain.map .bus ++ .finish id :: more, last,
        run_append.mpr ⟨_, waited, run_cons.mpr ⟨next, taken, executed⟩⟩, finished⟩

theorem bounded_of_run {events : List (JobsEvent γ)} (executed : run (jobsStep parse args) jobsStart events = some final) :
    Proofs.EventBus.Bounded final.bus := by
  have kept : ∀ state event next, Proofs.EventBus.Bounded state.bus → jobsStep parse args state event = some next →
      Proofs.EventBus.Bounded next.bus := fun _ _ _ bounded taken => bounded_step bounded taken
  exact run_invariant (fun state => Proofs.EventBus.Bounded state.bus) kept Proofs.EventBus.Bounded.initial executed

/-! ### Whole runs -/

/-- The result of a body that has ended is the result of its job from then on. -/
theorem result_of_body {events : List (JobsEvent γ)} {id : Uuid} {kind : SpawnKind} {how : BodyEnd}
    (executed : run (jobsStep parse args) jobsStart events = some final) (running : state.phases id = .running kind)
    (occurs : Occurs (jobsStep parse args) jobsStart events state (.bodyEnds id how) next) :
    resultOf (final.phases id) = some (bodyResult kind how) := by
  obtain ⟨before, after, rfl, reached, taken⟩ := occurs
  obtain ⟨other, same, later⟩ := run_append.mp executed
  cases reached.symm.trans same
  obtain ⟨following, moved, rest⟩ := run_cons.mp later
  cases taken.symm.trans moved
  have known : resultOf (next.phases id) = some (bodyResult kind how) := by
    simp only [jobsStep, running] at taken
    cases taken
    simp [JobsState.move, resultOf]
  have kept : ∀ state event next, resultOf (state.phases id) = some (bodyResult kind how) →
      jobsStep parse args state event = some next → resultOf (next.phases id) = some (bodyResult kind how) :=
    fun _ _ _ known taken => result_kept known taken
  exact run_invariant (fun state => resultOf (state.phases id) = some (bodyResult kind how)) kept known rest

/-- Of a job with a result nothing but that result is announced, and it is announced at
most once. -/
theorem announced_of_result {id : Uuid} {phase : JobPhase} {result : JobResult} (known : resultOf phase = some result) :
    announced id phase = [] ∨ announced id phase = [finishedEvent id result] := by
  cases phase with
  | unregistered | running kind => cases known
  | readProgress other | publish other progress | message other | announce other => exact .inl rfl
  | remove other | finished other =>
    cases known
    exact .inr rfl

theorem mem_announced {id : Uuid} {phase : JobPhase} {event : JobFinishedEvent} (member : event ∈ announced id phase) :
    ∃ result, resultOf phase = some result ∧ event = finishedEvent id result := by
  cases phase with
  | remove result | finished result => exact ⟨result, rfl, List.mem_singleton.mp member⟩
  | unregistered | running kind | readProgress result | publish result progress | message result | announce result =>
    cases member

/-- A GetJob on a registered job does not fail; after one has told a result every other
GetJob tells the same; and the result of every body that ends is announced once, as GetJob
tells it. -/
theorem job_results_stay_known (parse : Text → Except Text Uuid) (args : γ → Text) (events : List (JobsEvent γ))
    (final : JobsState γ) (executed : run (jobsStep parse args) jobsStart events = some final) :
    (∀ before after middle call id, events = before ++ after →
      run (jobsStep parse args) jobsStart before = some middle → Registered (middle.phases id) →
      parse (args call) = .ok id → middle.gets call = .running → ∀ status, final.gets call ≠ .answered (.error status)) ∧
    (∀ before between after middle later first second id answer response, events = before ++ (between ++ after) →
      run (jobsStep parse args) jobsStart before = some middle → Registered (middle.phases id) →
      parse (args first) = .ok id → middle.gets first = .running → parse (args second) = .ok id →
      run (jobsStep parse args) middle between = some later → later.gets first = .answered (.ok answer) →
      answer.state ≠ .running → (∀ earlier, later.gets second ≠ .answered earlier) →
      final.gets second = .answered response →
      ∃ same, response = .ok same ∧ same.state = answer.state ∧ same.error = answer.error) ∧
    (∀ state next id kind how, Occurs (jobsStep parse args) jobsStart events state (.bodyEnds id how) next →
      state.phases id = .running kind →
      (announcements parse args events id = [] ∨
        announcements parse args events id = [finishedEvent id (bodyResult kind how)]) ∧
      (∀ result, final.phases id = .finished result →
        announcements parse args events id = [finishedEvent id (bodyResult kind how)]) ∧
      ∃ more last, run (jobsStep parse args) final more = some last ∧
        announcements parse args (events ++ more) id = [finishedEvent id (bodyResult kind how)]) ∧
    ∀ call id answer event, final.gets call = .answered (.ok answer) → answer.state ≠ .running →
      parse (args call) = .ok id → event ∈ announcements parse args events id →
      (event.success = true ↔ answer.state = .succeeded) ∧ event.error.getD [] = answer.error := by
  refine ⟨?_, ?_, ?_, ?_⟩
  · rintro before after middle call id rfl reached registered asks fresh status answered
    obtain ⟨other, same, later⟩ := run_append.mp executed
    cases reached.symm.trans same
    have onTrack := onTrack_of_run (consistent_of_run reached) registered asks (by rw [fresh]; trivial) later
    rw [answered] at onTrack
    exact onTrack
  · rintro before between after middle later first second id answer response rfl reached registered asks fresh asks' passed
      told ended unanswered answered
    obtain ⟨other, same, whole⟩ := run_append.mp executed
    cases reached.symm.trans same
    obtain ⟨other, same, rest⟩ := run_append.mp whole
    cases passed.symm.trans same
    have consistent := consistent_of_run (run_append.mpr ⟨middle, reached, passed⟩)
    have informed := informed_of_run (run_append.mpr ⟨middle, reached, passed⟩) second
    have onTrack := onTrack_of_run (consistent_of_run reached) registered asks (by rw [fresh]; trivial) passed
    rw [told] at onTrack
    obtain ⟨result, finished, reports⟩ := onTrack ended
    have settled : Settled id result (later.gets second) := by
      cases pc : later.gets second with
      | running => trivial
      | finished other =>
        rw [pc] at informed
        cases asks'.symm.trans informed
        rfl
      | answered earlier => exact (unanswered earlier pc).elim
    have settled := settled_of_run consistent finished asks' settled rest
    rw [answered] at settled
    cases response with
    | error status => exact settled.elim
    | ok same => exact ⟨same, rfl, settled.1.trans reports.1.symm, settled.2.trans reports.2.symm⟩
  · intro state next id kind how occurs running
    have known := result_of_body executed running occurs
    obtain ⟨more, last, rest, finished⟩ := finish_reachable (bounded_of_run executed) known
    refine ⟨?_, ?_, more, last, rest, ?_⟩
    · rw [announcements_eq executed id]
      exact announced_of_result known
    · intro result done
      rw [done] at known
      cases known
      rw [announcements_eq executed id, done]
      rfl
    · rw [announcements_eq (run_append.mpr ⟨final, executed, rest⟩) id, finished]
      rfl
  · intro call id answer event answered told asks member
    have informed := informed_of_run executed call
    rw [answered] at informed
    obtain ⟨other, result, asked, known, reports⟩ := informed told
    cases asks.symm.trans asked
    rw [announcements_eq executed id] at member
    obtain ⟨same, known', rfl⟩ := mem_announced member
    cases known.symm.trans known'
    refine ⟨?_, reports.2.symm⟩
    rw [reports.1, statusOf, finishedEvent]
    cases result <;> simp [Except.isOk, Except.toBool]

/-- A job whose body panics, and two GetJob calls. -/
def panickingRun : List (JobsEvent Bool) :=
  .register 7 .async :: .bodyEnds 7 (.panicked "task 9 panicked".toList) ::
    [.finish 7, .finish 7, .finish 7, .finish 7, .get true, .finish 7, .get false, .get false]

theorem panicking_job_is_announced : ∃ final,
    run (jobsStep (fun _ => .ok 7) fun _ => []) jobsStart panickingRun = some final ∧
    final.gets true = .answered (.ok (runningStatus ⟨0, 0⟩)) ∧
    final.gets false = .answered (.ok ⟨.failed, 0, 0, "job panicked: task 9 panicked".toList⟩) ∧
    announcements (fun _ => .ok 7) (fun _ => []) panickingRun 7 =
      [finishedEvent 7 (.error "job panicked: task 9 panicked".toList)] := by
  refine ⟨_, rfl, rfl, rfl, ?_⟩
  have known := (job_results_stay_known (fun _ => .ok 7) (fun _ => []) panickingRun _ rfl).2.2.1
  exact (known _ _ 7 .async _ ⟨[.register 7 .async], _, rfl, rfl, rfl⟩ rfl).2.1 _ rfl

end Vaulton.Proofs.JobResults
