import Vaulton.RepoJobs

/-! The jobs that can be previewed (the bodies of `backup`, `restore` and
`apply_retention` of `ipc/src/server.rs`), each alone on its repository and its
destination. The repository may not exist yet: `get_repo_job` creates it only when it is
asked to, and then with `allow_init`. -/

namespace Vaulton.DryRun
open Vaulton.Retention Vaulton.RepoJobs

variable {δ : Type}

/-- What a job may change. The files of the destination point are left abstract. -/
structure Site (δ : Type) where
  repo : Option Repository
  dest : δ

/-- What a restore takes from rustic. `prepare_restore` creates directories and removes
files, but only prints what it would do when it is a dry run. -/
structure Restorer (δ : Type) where
  prepareRestore : (delete dryRun : Bool) → Answer → Repository → δ → δ
  restore : (delete : Bool) → Answer → Repository → δ → δ
  prepare_dry : ∀ delete answer repo dest, prepareRestore delete true answer repo dest = dest

inductive Request where
  | repoJob (job : Job)
  | restore (delete dryRun : Bool)
  deriving DecidableEq

def jobDryRun : Job → Bool
  | .backup _ _ _ dryRun | .applyRetention _ _ dryRun => dryRun

def Request.dryRun : Request → Bool
  | .repoJob job => jobDryRun job
  | .restore _ dry => dry

inductive Pc where
  | job (pc : JobPc)
  | openRepo
  /-- `node_from_snapshot_path` and `ls`. -/
  | readSnapshot
  | prepareRestore
  | restore
  | done (result : Outcome Unit)
  deriving DecidableEq

def Request.start : Request → Pc
  | .repoJob _ => .job .start
  | .restore _ _ => .openRepo

def emptyRepository : Repository := ⟨[], [], List.nodup_nil⟩

def noRepository : Outcome Unit := .err "repository does not exist"

/-- A step of a Backup or an ApplyRetention. Only the open of the backup itself may create
the repository; any other open fails without one. -/
def repoJobStep (rustic : Rustic) (job : Job) (site : Site δ) (answer : Answer) (pc : JobPc) : Option (Site δ × JobPc) :=
  match site.repo with
  | some repo => (jobStep rustic job repo answer pc).map fun next => ({ site with repo := some next.1 }, next.2)
  | none =>
    if pc = .openRepo then
      if answer.fails then some (site, .done backendError) else some ({ site with repo := some emptyRepository }, .openRepo)
    else (jobStep rustic job emptyRepository { answer with fails := true } pc).map fun next => (site, next.2)

def restoreStep (restorer : Restorer δ) (delete dryRun : Bool) (site : Site δ) (answer : Answer) :
    Pc → Option (Site δ × Pc)
  | .openRepo =>
    match site.repo with
    | none => some (site, .done noRepository)
    | some _ => if answer.fails then some (site, .done backendError) else some (site, .readSnapshot)
  | .readSnapshot => if answer.fails then some (site, .done backendError) else some (site, .prepareRestore)
  | .prepareRestore =>
    let site := { site with dest := restorer.prepareRestore delete dryRun answer (site.repo.getD emptyRepository) site.dest }
    if answer.cancelled ∨ answer.fails then some (site, .done backendError)
    else if dryRun then some (site, .done (.ok ()))
    else some (site, .restore)
  | .restore =>
    let site := { site with dest := restorer.restore delete answer (site.repo.getD emptyRepository) site.dest }
    if answer.cancelled ∨ answer.fails then some (site, .done backendError) else some (site, .done (.ok ()))
  | .done _ | .job _ => none

def requestStep (rustic : Rustic) (restorer : Restorer δ) (request : Request) (state : Site δ × Pc) (answer : Answer) :
    Option (Site δ × Pc) :=
  match request, state.2 with
  | .repoJob job, .job pc => (repoJobStep rustic job state.1 answer pc).map fun next => (next.1, .job next.2)
  | .restore delete dryRun, pc => restoreStep restorer delete dryRun state.1 answer pc
  | .repoJob _, _ => none

end Vaulton.DryRun
