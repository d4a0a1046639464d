import Vaulton.SetVfs
import Vaulton.Transfer

/-! Running jobs and the users they run for. A handler resolves the points its job works
on, records one user as the owner and registers the job; SetVfs cancels the jobs whose
owner it changes or removes (`ipc/src/server.rs`: `backup`, `restore`, `check`, `forget`,
`apply_retention`, `vfs_transfer`, `register_job`, `set_vfs`). -/

namespace Vaulton.JobCancel
open Vaulton.Config Vaulton.Paths Vaulton.SetVfs Vaulton.Transfer

def requireRepoPointId (parseUuid : Text → Option Uuid) (user : VfsUser) (pointId : Text) : Except Status VfsPoint := do
  let point ← findPointId parseUuid user pointId
  if point.isRepo = false then throw ⟨.invalidArgument, s!"point '{pointId.str}' is a data point, not a repo"⟩
  return point

def requireDataPointId (parseUuid : Text → Option Uuid) (user : VfsUser) (pointId : Text) : Except Status VfsPoint := do
  let point ← findPointId parseUuid user pointId
  if point.isRepo then throw ⟨.invalidArgument, s!"point '{pointId.str}' is a repo, not a data point"⟩
  return point

def requireWritable (point : VfsPoint) : Except Status Unit :=
  if point.readOnly then .error ⟨.permissionDenied, s!"point '{point.name.str}' is read-only"⟩ else .ok ()

def validateRepoPassword (password : Text) : Except Status Unit :=
  if password = [] then .error ⟨.invalidArgument, "repository password must not be empty"⟩
  else if password.any isControl then .error ⟨.invalidArgument, "repository password contains a control character"⟩
  else .ok ()

/-- Storage target and password of a repo point. -/
def repoSource (point : VfsPoint) : Except Status (Target × Text) :=
  match point.repoPassword with
  | none => .error ⟨.invalidArgument, s!"repo point '{point.name.str}' is missing a password"⟩
  | some password => do
    validateRepoPassword password
    return (point.target, password)

/-- Backups and restores take paths of data points only. -/
def resolveDataFilePath (parseUuid : Text → Option Uuid) (user : VfsUser) : FilePath → Except Status (VfsPoint × Text)
  | .blank => .error ⟨.invalidArgument, "path is blank"⟩
  | .indexed pointId pointPath => do
    let point ← requireDataPointId parseUuid user pointId
    let path ← validateRelativePointPath pointPath
    return (point, path)
  | .virtual path => do
    let (root, parts) := splitOnce (path.dropWhile fun c => c = '/')
    if root ≠ pointsRoot then
      throw ⟨.invalidArgument, "backup/restore paths must be under /points/; repository paths are not allowed"⟩
    match parts.map splitOnce with
    | none | some ([], _) => throw ⟨.invalidArgument, s!"path '{path.str}' is missing a data point name"⟩
    | some (name, rest) =>
      let point ← findPoint user name false
      let rest ← validateRelativePointPath (rest.getD [])
      return (point, rest)

structure RepoArg where
  user : Text
  repoId : Text
  deriving DecidableEq

inductive JobRequest where
  | backup (src : Option FileArg) (repo : RepoArg)
  | restore (dest : Option FileArg) (repo : RepoArg) (dryRun : Bool)
  | check (repo : RepoArg)
  | forget (repo : RepoArg)
  | applyRetention (repo : RepoArg)
  | transfer (args : TransferArgs)

/-- A point that a job reads or writes, with the user it belongs to. -/
structure Use where
  user : Text
  point : Uuid
  deriving DecidableEq

/-- A `JobHandle`, with what the job was started for. -/
structure Job where
  request : JobRequest
  user : Text
  uses : List Use
  cancelled : Bool

/-- What the environment answers to a handler. -/
structure StartAnswers where
  /-- Symlink scans, the operators of the points, snapshot ids and policies. -/
  checks : Except Status Unit
  storage : Storage
  transfer : RequestAnswers

/-- The repository of a job: its user and point. -/
def repoOf (server : Server) (repo : RepoArg) : Except Status (VfsUser × VfsPoint) := do
  let user ← server.getUser repo.user
  let point ← requireRepoPointId server.parseUuid user repo.repoId
  return (user, point)

/-- A job on a repository alone; only Check is content with a read-only one. -/
def repoJob (server : Server) (answers : StartAnswers) (request : JobRequest) (repo : RepoArg) (writes : Bool) :
    Except Status Job := do
  let (user, point) ← repoOf server repo
  (if writes then requireWritable point else .ok ())
  let _ ← repoSource point
  answers.checks
  return ⟨request, user.username, [⟨user.username, point.id⟩], false⟩

/-- Rustic cannot reserve space before it overwrites local files. -/
def requireUnlimited (point : VfsPoint) (dryRun : Bool) : Except Status Unit :=
  if isLocalScheme point.scheme ∧ point.maxBytes ≠ none ∧ dryRun = false then
    .error ⟨.failedPrecondition, "quota-limited local restores are disabled because rustic restore can overwrite " ++
      "multiple files atomically without a pre-write filesystem quota reservation"⟩
  else .ok ()

def startJob (server : Server) (answers : StartAnswers) (request : JobRequest) : Except Status Job :=
  match request with
  | .backup src repo => do
    let file ← requirePath src
    let sourceUser ← server.getUser file.user
    let (dataPoint, _) ← resolveDataFilePath server.parseUuid sourceUser file.path
    let (repoUser, repoPoint) ← repoOf server repo
    requireWritable repoPoint
    let _ ← repoSource repoPoint
    answers.checks
    return ⟨request, repoUser.username, [⟨sourceUser.username, dataPoint.id⟩, ⟨repoUser.username, repoPoint.id⟩], false⟩
  | .restore dest repo dryRun => do
    let file ← requirePath dest
    let destUser ← server.getUser file.user
    let (destPoint, _) ← resolveDataFilePath server.parseUuid destUser file.path
    requireWritable destPoint
    let (repoUser, repoPoint) ← repoOf server repo
    let _ ← repoSource repoPoint
    requireUnlimited destPoint dryRun
    answers.checks
    return ⟨request, repoUser.username, [⟨destUser.username, destPoint.id⟩, ⟨repoUser.username, repoPoint.id⟩], false⟩
  | .check repo => repoJob server answers request repo false
  | .forget repo => repoJob server answers request repo true
  | .applyRetention repo => repoJob server answers request repo true
  | .transfer args => do
    let _ ← vfsTransfer server answers.storage answers.transfer args
    let oldFile ← requirePath args.oldPath
    let newFile ← requirePath args.newPath
    let srcUser ← server.getUser oldFile.user
    let dstUser ← server.getUser newFile.user
    let (srcPoint, _) ← resolvePointPath srcUser (← resolveFilePath server.parseUuid srcUser oldFile.path)
    let (dstPoint, _) ← resolvePointPath dstUser (← resolveFilePath server.parseUuid dstUser newFile.path)
    return ⟨request, oldFile.user, [⟨srcUser.username, srcPoint.id⟩, ⟨dstUser.username, dstPoint.id⟩], false⟩

/-- SetVfs cancels every job whose user is among the changed ones. -/
def cancelJobs (changed : List VfsUser) (jobs : Uuid → Option Job) (id : Uuid) : Option Job :=
  (jobs id).map fun job => { job with cancelled := job.cancelled || decide (job.user ∈ changed.map VfsUser.username) }

structure JobsState where
  users : List VfsUser
  jobs : Uuid → Option Job

inductive JobsEvent where
  /-- A handler registers its job under a fresh id. -/
  | start (id : Uuid) (request : JobRequest) (failed : VfsPoint → Option String) (answers : StartAnswers)
  | cancel (id : Uuid)
  | finish (id : Uuid)
  /-- A whole SetVfs call; `fails` is a failed key rotation or database write. -/
  | setVfs (users : List VfsUser) (fails : Bool)

def jobsStart (users : List VfsUser) : JobsState := ⟨users, fun _ => none⟩

def jobsStep (parseUuid : Text → Option Uuid) (state : JobsState) : JobsEvent → Option JobsState
  | .start id request failed answers =>
    match state.jobs id, startJob ⟨state.users, failed, parseUuid⟩ answers request with
    | none, .ok job => some { state with jobs := Function.update state.jobs id (some job) }
    | none, .error _ => some state
    | some _, _ => none
  | .cancel id => some { state with
      jobs := Function.update state.jobs id ((state.jobs id).map fun job => { job with cancelled := true }) }
  | .finish id => some { state with jobs := Function.update state.jobs id none }
  | .setVfs request fails =>
    match normalizeVfsUsers request with
    | .error _ => some state
    | .ok users =>
      -- Nothing is cancelled unless the new users are stored.
      if fails then some state else some ⟨users, cancelJobs (changedUsers state.users users) state.jobs⟩

end Vaulton.JobCancel
