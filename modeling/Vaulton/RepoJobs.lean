import Vaulton.Retention

/-! Backup and ApplyRetention jobs on one repository. The job bodies run on blocking
threads and take no lock, so their steps interleave freely; a job is cut at every
access to the repository. -/

namespace Vaulton.RepoJobs
open Vaulton.Retention

/-- What a job was started with. A backup names the snapshot it is going to save. -/
inductive Job where
  | backup (snapshot : Snapshot) (retention : Option RetentionPolicy) (maxBytes : Option Nat) (dryRun : Bool)
  | applyRetention (policy : RetentionPolicy) (maxBytes : Option Nat) (dryRun : Bool)
  deriving DecidableEq

inductive JobPc where
  | start
  /-- The space rule before a backup, then after it, or on demand, the full run. -/
  | retention (run : RetentionRun) (report : Report) (pc : RetentionPc)
  | openRepo
  /-- A backup that has read the index, with the blobs it found missing. -/
  | write (missing : List Nat)
  | save
  | done (result : Outcome Unit)
  deriving DecidableEq

structure JobsState (ι : Type) where
  repo : Repository
  pcs : ι → JobPc

/-- `retention_policy` of a backup: real backups only, and only a policy with rules. -/
def backupPolicy (retention : Option RetentionPolicy) (dryRun : Bool) : Option RetentionPolicy :=
  if dryRun then none else retention.filter hasRules

def beginRetention (policy : RetentionPolicy) (phase : Phase) (maxBytes : Option Nat) (dryRun : Bool) : JobPc :=
  .retention ⟨policy, phase, maxBytes, dryRun⟩ {} .begin

/-- The first step of a job body: a backup makes room when its policy has a space rule. -/
def Job.begin : Job → JobPc
  | .backup _ retention maxBytes dryRun =>
    match backupPolicy retention dryRun with
    | some policy => if hasSpaceRule policy then beginRetention policy .spaceOnly maxBytes false else .openRepo
    | none => .openRepo
  | .applyRetention policy maxBytes dryRun => beginRetention policy .full maxBytes dryRun

/-- What follows a finished retention run. Before a backup its errors are warnings, after
one too; ApplyRetention passes them on. -/
def Job.afterRetention (job : Job) (phase : Phase) (result : Outcome Unit) : JobPc :=
  match job, phase with
  | .backup _ _ _ _, .spaceOnly => .openRepo
  | .backup _ _ _ _, .full => .done (.ok ())
  | .applyRetention _ _ _, _ => .done result

def jobStep (rustic : Rustic) (job : Job) (repo : Repository) (answer : Answer) : JobPc → Option (Repository × JobPc)
  | .start => some (repo, job.begin)
  | .retention run report pc =>
    match pc with
    | .finished result => some (repo, job.afterRetention run.phase result)
    | _ => (retentionStep rustic run ⟨repo, report, pc⟩ answer).map fun next =>
        (next.repo, .retention run next.report next.pc)
  | .openRepo =>
    match job with
    | .backup snapshot _ _ _ =>
      if answer.fails then some (repo, .done backendError)
      else some (repo, .write (snapshot.blobs.filter fun blob => !repo.blobs.contains blob))
    | .applyRetention _ _ _ => none
  | .write [] => some (repo, .save)
  | .write (blob :: missing) =>
    if answer.cancelled ∨ answer.fails then some (repo, .done backendError)
    else some (repo.addBlob blob, .write missing)
  | .save =>
    match job with
    | .backup snapshot retention maxBytes dryRun =>
      if answer.cancelled ∨ answer.fails then some (repo, .done backendError)
      else some (repo.saveSnapshot snapshot,
        match backupPolicy retention dryRun with
        | some policy => beginRetention policy .full maxBytes false
        | none => .done (.ok ()))
    | .applyRetention _ _ _ => none
  | .done _ => none

variable {ι : Type} [DecidableEq ι]

def jobsStep (rustic : Rustic) (jobs : ι → Job) (state : JobsState ι) (event : ι × Answer) : Option (JobsState ι) :=
  (jobStep rustic (jobs event.1) state.repo event.2 (state.pcs event.1)).map fun next =>
    ⟨next.1, Function.update state.pcs event.1 next.2⟩

def jobsStart (repo : Repository) : JobsState ι := ⟨repo, fun _ => .start⟩

end Vaulton.RepoJobs
