import Vaulton.JobCancel
import Vaulton.Lib.Machine
import Vaulton.Proofs.Config

/-! Which jobs a SetVfs call cancels. A job has one owner, who is also the user of one of
its points: the repository's user, or for a transfer the user of the source. -/

namespace Vaulton.Proofs.JobCancel
open Vaulton.Config Vaulton.Lib Vaulton.SetVfs Vaulton.Transfer Vaulton.JobCancel Vaulton.Proofs.Config

/-- The user a request runs for. -/
def owner : JobRequest → Option Text
  | .backup _ repo | .restore _ repo _ | .check repo | .forget repo | .applyRetention repo => some repo.user
  | .transfer args => args.oldPath.map FileArg.user

/-- The job runs for the owner of its request, and on a point of that user. -/
structure Owned (job : Job) : Prop where
  recorded : owner job.request = some job.user
  involved : ∃ use ∈ job.uses, use.user = job.user

theorem getUser_username {server : Server} {username : Text} {user : VfsUser} (found : server.getUser username = .ok user) :
    user.username = username := by
  unfold Server.getUser at found
  split at found <;> cases found
  next same => simpa using List.find?_some same

theorem repoOf_username {server : Server} {repo : RepoArg} {user : VfsUser} {point : VfsPoint}
    (found : repoOf server repo = .ok (user, point)) : user.username = repo.user := by
  obtain ⟨owner, known, rest⟩ := bind_eq_ok.mp found
  obtain ⟨listed, -, last⟩ := bind_eq_ok.mp rest
  cases last
  exact getUser_username known

theorem repoJob_owned {server : Server} {answers : StartAnswers} {request : JobRequest} {repo : RepoArg} {writes : Bool}
    {job : Job} (runs : owner request = some repo.user) (started : repoJob server answers request repo writes = .ok job) :
    Owned job := by
  obtain ⟨⟨user, point⟩, found, checked⟩ := bind_eq_ok.mp started
  have same := repoOf_username found
  obtain ⟨-, -, checked⟩ := bind_eq_ok.mp checked
  obtain ⟨-, -, checked⟩ := bind_eq_ok.mp checked
  obtain ⟨-, -, last⟩ := bind_eq_ok.mp checked
  cases last
  exact ⟨by rw [runs, same], _, List.mem_singleton_self _, rfl⟩

theorem requirePath_ok {file : Option FileArg} {found : FileArg} (required : requirePath file = .ok found) :
    file = some found := by
  cases file with
  | none => cases required
  | some given =>
    cases required
    rfl

theorem startJob_owned {server : Server} {answers : StartAnswers} {request : JobRequest} {job : Job}
    (started : startJob server answers request = .ok job) : Owned job := by
  cases request with
  | backup src repo =>
    obtain ⟨file, -, checked⟩ := bind_eq_ok.mp started
    obtain ⟨sourceUser, -, checked⟩ := bind_eq_ok.mp checked
    obtain ⟨⟨dataPoint, path⟩, -, checked⟩ := bind_eq_ok.mp checked
    obtain ⟨⟨repoUser, repoPoint⟩, found, checked⟩ := bind_eq_ok.mp checked
    have same := repoOf_username found
    obtain ⟨-, -, checked⟩ := bind_eq_ok.mp checked
    obtain ⟨-, -, checked⟩ := bind_eq_ok.mp checked
    obtain ⟨-, -, last⟩ := bind_eq_ok.mp checked
    cases last
    exact ⟨by rw [owner, same], _, List.mem_cons_of_mem _ (List.mem_singleton_self _), rfl⟩
  | restore dest repo dryRun =>
    obtain ⟨file, -, checked⟩ := bind_eq_ok.mp started
    obtain ⟨destUser, -, checked⟩ := bind_eq_ok.mp checked
    obtain ⟨⟨destPoint, path⟩, -, checked⟩ := bind_eq_ok.mp checked
    obtain ⟨-, -, checked⟩ := bind_eq_ok.mp checked
    obtain ⟨⟨repoUser, repoPoint⟩, found, checked⟩ := bind_eq_ok.mp checked
    have same := repoOf_username found
    obtain ⟨-, -, checked⟩ := bind_eq_ok.mp checked
    obtain ⟨-, -, checked⟩ := bind_eq_ok.mp checked
    obtain ⟨-, -, last⟩ := bind_eq_ok.mp checked
    cases last
    exact ⟨by rw [owner, same], _, List.mem_cons_of_mem _ (List.mem_singleton_self _), rfl⟩
  | check repo => exact repoJob_owned rfl started
  | forget repo => exact repoJob_owned rfl started
  | applyRetention repo => exact repoJob_owned rfl started
  | transfer args =>
    obtain ⟨plan, -, checked⟩ := bind_eq_ok.mp started
    obtain ⟨oldFile, given, checked⟩ := bind_eq_ok.mp checked
    obtain ⟨newFile, -, checked⟩ := bind_eq_ok.mp checked
    obtain ⟨srcUser, known, checked⟩ := bind_eq_ok.mp checked
    have same := getUser_username known
    obtain ⟨dstUser, -, checked⟩ := bind_eq_ok.mp checked
    obtain ⟨srcPath, -, checked⟩ := bind_eq_ok.mp checked
    obtain ⟨⟨srcPoint, srcRest⟩, -, checked⟩ := bind_eq_ok.mp checked
    obtain ⟨dstPath, -, checked⟩ := bind_eq_ok.mp checked
    obtain ⟨⟨dstPoint, dstRest⟩, -, last⟩ := bind_eq_ok.mp checked
    cases last
    exact ⟨by rw [owner, requirePath_ok given]; rfl, _, List.mem_cons_self, same⟩

/-! ### Runs -/

variable {parseUuid : Text → Option Uuid} {state next : JobsState}

def AllOwned (state : JobsState) : Prop := ∀ id job, state.jobs id = some job → Owned job

theorem AllOwned.step {event : JobsEvent} (owned : AllOwned state) (taken : jobsStep parseUuid state event = some next) :
    AllOwned next := by
  cases event with
  | start id request failed answers =>
    simp only [jobsStep] at taken
    split at taken <;> cases taken
    next job fresh started =>
      intro other running found
      rcases of_update (· = some running) found with ⟨-, same⟩ | ⟨-, before⟩
      · cases same
        exact startJob_owned started
      · exact owned other running before
    next => exact owned
  | cancel id =>
    cases taken
    intro other running found
    rcases of_update (· = some running) found with ⟨-, same⟩ | ⟨-, before⟩
    · obtain ⟨job, before, rfl⟩ := Option.map_eq_some_iff.mp same
      exact ⟨(owned id job before).recorded, (owned id job before).involved⟩
    · exact owned other running before
  | finish id =>
    cases taken
    intro other running found
    rcases of_update (· = some running) found with ⟨-, same⟩ | ⟨-, before⟩
    · cases same
    · exact owned other running before
  | setVfs request fails =>
    simp only [jobsStep] at taken
    split at taken
    · cases taken
      exact owned
    · split at taken <;> cases taken
      · exact owned
      · intro id running found
        obtain ⟨job, before, rfl⟩ := Option.map_eq_some_iff.mp found
        exact ⟨(owned id job before).recorded, (owned id job before).involved⟩

/-- The username stands for a record that the call changes or removes. -/
def ChangedName (oldUsers users : List VfsUser) (username : Text) : Prop :=
  username ∈ (changedUsers oldUsers users).map VfsUser.username

/-- A SetVfs call that succeeds cancels every running job whose owner it changes or
removes, and no job all of whose points belong to unchanged users. -/
theorem set_vfs_cancels_jobs_of_changed_owners (parseUuid : Text → Option Uuid) (stored : List VfsUser)
    (events : List JobsEvent) (state next : JobsState) (executed : run (jobsStep parseUuid) (jobsStart stored) events = some state)
    (request users : List VfsUser) (accepted : normalizeVfsUsers request = .ok users)
    (succeeded : jobsStep parseUuid state (.setVfs request false) = some next) (id : Uuid) (job : Job)
    (running : state.jobs id = some job) :
    owner job.request = some job.user ∧ ∃ cancelled, next.jobs id = some { job with cancelled } ∧
      (ChangedName state.users users job.user → cancelled = true) ∧
      ((∀ use ∈ job.uses, ¬ChangedName state.users users use.user) → cancelled = job.cancelled) := by
  have owned : AllOwned state :=
    run_invariant AllOwned (fun _ _ _ holds taken => holds.step taken) (by simp [AllOwned, jobsStart]) executed
  obtain ⟨recorded, use, member, same⟩ := owned id job running
  simp only [jobsStep, accepted] at succeeded
  cases succeeded
  refine ⟨recorded, _, by simp only [cancelJobs, running, Option.map_some]; rfl, ?_, ?_⟩
  · intro changed
    unfold ChangedName at changed
    rw [decide_eq_true changed, Bool.or_true]
  · intro unchanged
    have other : ¬ChangedName state.users users job.user := same ▸ unchanged use member
    unfold ChangedName at other
    rw [decide_eq_false other, Bool.or_false]

def bobData (readOnly : Bool) : VfsUser :=
  ⟨"bob".toList, [⟨2, "data".toList, none, readOnly, "s3".toList, [], false, none⟩]⟩

def aliceRepo : VfsUser := ⟨"alice".toList, [⟨1, "backup".toList, none, false, "s3".toList, [], true, some "x".toList⟩]⟩

/-- Ids of one digit. -/
def parseDigit (text : Text) : Option Uuid :=
  if text = "1".toList then some 1 else if text = "2".toList then some 2 else none

/-- A backup of bob's data into alice's repository. -/
def crossBackup : JobRequest := .backup (some ⟨"bob".toList, .indexed "2".toList []⟩) ⟨"alice".toList, "1".toList⟩

def quietAnswers : StartAnswers where
  checks := .ok ()
  storage := fun _ => ⟨fun _ => none, by simp⟩
  transfer := ⟨{}, {}, .ok [], none⟩

def startBackup : List JobsEvent := [.start 7 crossBackup (fun _ => none) quietAnswers]

/-- The owner of the repository is removed. -/
theorem removed_owner_cancels_backup : ∃ state next : JobsState, ∃ job : Job,
    run (jobsStep parseDigit) (jobsStart [aliceRepo, bobData false]) startBackup = some state ∧
    jobsStep parseDigit state (.setVfs [bobData false] false) = some next ∧
    state.jobs 7 = some job ∧ next.jobs 7 = some { job with cancelled := true } := by
  refine ⟨_, _, _, rfl, rfl, rfl, ?_⟩
  obtain ⟨-, cancelled, after, changed, -⟩ := set_vfs_cancels_jobs_of_changed_owners parseDigit [aliceRepo, bobData false]
    startBackup _ _ rfl [bobData false] [bobData false] rfl rfl 7 _ rfl
  rw [after, changed (by unfold ChangedName; decide)]

/-- The source's record changes and the backup goes on. -/
theorem changed_source_keeps_backup_running : ∃ state next : JobsState, ∃ job : Job, ∃ use ∈ job.uses,
    run (jobsStep parseDigit) (jobsStart [aliceRepo, bobData false]) startBackup = some state ∧
    jobsStep parseDigit state (.setVfs [aliceRepo, bobData true] false) = some next ∧
    next.users = [aliceRepo, bobData true] ∧ state.jobs 7 = some job ∧
    ChangedName state.users next.users use.user ∧ next.jobs 7 = some job ∧ job.cancelled = false := by
  refine ⟨_, _, _, ⟨"bob".toList, 2⟩, ?_, rfl, rfl, rfl, rfl, ?_, ?_, rfl⟩
  · exact List.mem_cons_self
  · unfold ChangedName
    decide
  · rfl

end Vaulton.Proofs.JobCancel
