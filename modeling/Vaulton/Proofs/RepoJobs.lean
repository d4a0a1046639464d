import Vaulton.Proofs.Retention
import Vaulton.RepoJobs

/-! When concurrent backups and retention runs leave every snapshot restorable. Two
things are remembered across steps: the blobs a backup relies on after reading the
index, and the blobs a prune is going to remove. The invariant keeps them disjoint. -/

namespace Vaulton.Proofs.RepoJobs
open Vaulton.Lib Vaulton.Quota Vaulton.Retention Vaulton.RepoJobs Vaulton.Proofs.Retention

variable {rustic : Rustic} {job : Job} {repo : Repository}

/-- Every snapshot has all its blobs. -/
def Complete (repo : Repository) : Prop := ∀ snapshot ∈ repo.snapshots, ∀ blob ∈ snapshot.blobs, blob ∈ repo.blobs

instance (repo : Repository) : Decidable (Complete repo) := inferInstanceAs (Decidable (∀ _ ∈ _, _))

/-- The snapshot of a backup that has read the index and not saved it yet. -/
def writing : Job → JobPc → Option Snapshot
  | .backup snapshot _ _ _, .write _ | .backup snapshot _ _ _, .save => some snapshot
  | _, _ => none

def stillMissing : JobPc → List Nat
  | .write missing => missing
  | _ => []

/-- The blobs a prune has planned to remove. -/
def planned : JobPc → Option (List Nat)
  | .retention _ _ (.prune (.execute doomed) _ _) => some doomed
  | _ => none

/-- The snapshot of a backup about to read the index. -/
def opening : Job → JobPc → Option Snapshot
  | .backup snapshot _ _ _, .openRepo => some snapshot
  | _, _ => none

/-- The next step makes a prune plan, instant or not: a prune that is not instant may remove
what an earlier one has marked, so both kinds count. -/
def planning : JobPc → Bool
  | .retention _ _ (.prune .plan _ _) => true
  | _ => false

/-- The step makes no prune plan, instant or not, with a blob that a backup in progress relies on, and
reads no index for a backup that relies on a blob in a pending plan. -/
def Apart {ι : Type} (jobs : ι → Job) (state : JobsState ι) (event : ι × Answer) : Prop :=
  (planning (state.pcs event.1) = true → ∀ other, ∀ snapshot ∈ writing (jobs other) (state.pcs other),
    ∀ blob ∈ snapshot.blobs, blob ∉ state.repo.unreferenced) ∧
  ∀ snapshot ∈ opening (jobs event.1) (state.pcs event.1), ∀ other, ∀ plan ∈ planned (state.pcs other),
    ∀ blob ∈ snapshot.blobs, blob ∉ plan

instance {ι : Type} [Fintype ι] (jobs : ι → Job) (state : JobsState ι) (event : ι × Answer) :
    Decidable (Apart jobs state event) :=
  inferInstanceAs (Decidable (_ ∧ _))

/-! ### One job -/

/-- Everything a step of a job can do to the repository and to what the job relies on. -/
inductive JobEffect (job : Job) (repo : Repository) (pc : JobPc) (next : Repository × JobPc) : Prop where
  | quiet (snapshots : next.1.snapshots ⊆ repo.snapshots) (added : repo.blobs ⊆ next.1.blobs)
      (unwritten : writing job next.2 = none) (unplanned : planned next.2 = none)
  | plans (at_pc : planning pc = true) (repo_same : next.1 = repo) (unwritten : writing job next.2 = none)
      (plan : planned next.2 = some repo.unreferenced)
  | prunes (plan gone : List Nat) (at_pc : planned pc = some plan) (some_of : gone ⊆ plan)
      (removed : next.1 = repo.removeBlobs gone) (unwritten : writing job next.2 = none)
      (unplanned : planned next.2 = none)
  | opens (snapshot : Snapshot) (at_pc : opening job pc = some snapshot) (repo_same : next.1 = repo)
      (writes : writing job next.2 = some snapshot) (unplanned : planned next.2 = none)
      (found : ∀ blob ∈ snapshot.blobs, blob ∈ stillMissing next.2 ∨ blob ∈ repo.blobs)
  | writes (snapshot : Snapshot) (at_pc : writing job pc = some snapshot)
      (snapshots : next.1.snapshots = repo.snapshots) (added : repo.blobs ⊆ next.1.blobs)
      (goes : writing job next.2 = some snapshot) (unplanned : planned next.2 = none)
      (found : ∀ blob ∈ stillMissing pc, blob ∈ stillMissing next.2 ∨ blob ∈ next.1.blobs)
  | saves (snapshot : Snapshot) (at_pc : writing job pc = some snapshot) (all_found : stillMissing pc = [])
      (saved : next.1 = repo.saveSnapshot snapshot) (unwritten : writing job next.2 = none)
      (unplanned : planned next.2 = none)

private theorem deleteListed_subset (repo : Repository) (answer : Answer) (listed : List Snapshot) :
    (deleteListed repo answer listed).snapshots ⊆ repo.snapshots ∧ (deleteListed repo answer listed).blobs = repo.blobs := by
  unfold deleteListed
  split <;> exact ⟨List.filter_sublist.subset, rfl⟩

@[simp] private theorem planned_of_idle {run : RetentionRun} {report : Report} {pc : RetentionPc} (rests : idle pc = true) :
    planned (.retention run report pc) = none := by
  unfold planned
  split
  next at_pc =>
    cases at_pc
    cases rests
  next => rfl

private theorem retention_effect {run : RetentionRun} {report : Report} {pc : RetentionPc} {answer : Answer}
    {next : RetentionState} (taken : retentionStep rustic run ⟨repo, report, pc⟩ answer = some next) :
    JobEffect job repo (.retention run report pc) (next.repo, .retention run next.report next.pc) := by
  have unwritten : writing job (.retention run next.report next.pc) = none := by cases job <;> rfl
  cases retentionStep_effect taken with
  | moves same rests => exact .quiet (by simp [same]) (by simp [same]) unwritten (planned_of_idle rests)
  | listsTime keep same pc => exact .quiet (by simp [same]) (by simp [same]) unwritten (by simp [pc, planned])
  | readsUsage now doomed before at_pc same pc =>
    exact .quiet (by simp [same]) (by simp [same]) unwritten (by simp [pc, planned])
  | listsSpace shortage same pc => exact .quiet (by simp [same]) (by simp [same]) unwritten (by simp [pc, planned])
  | deletesTime now doomed before at_pc deleted rests =>
    obtain ⟨fewer, blobs⟩ := deleteListed_subset repo answer doomed
    exact .quiet (by rwa [deleted]) (by simp [deleted, blobs]) unwritten (planned_of_idle rests)
  | deletesSpace shortage now batch at_pc deleted rests =>
    obtain ⟨fewer, blobs⟩ := deleteListed_subset repo answer batch
    exact .quiet (by rwa [deleted]) (by simp [deleted, blobs]) unwritten (planned_of_idle rests)
  | plans instant resume at_pc same next_pc =>
    simp only at at_pc
    exact .plans (by simp [at_pc, planning]) same unwritten (by simp [next_pc, planned])
  | prunes doomed gone instant resume at_pc some_of removed rests =>
    simp only at at_pc
    exact .prunes doomed gone (by simp [at_pc, planned]) some_of removed unwritten (planned_of_idle rests)

private theorem begin_quiet (job : Job) : writing job job.begin = none ∧ planned job.begin = none := by
  unfold Job.begin
  split
  · split
    · split <;> exact ⟨rfl, rfl⟩
    · exact ⟨rfl, rfl⟩
  · exact ⟨rfl, rfl⟩

private theorem afterRetention_quiet (job : Job) (phase : Phase) (result : Outcome Unit) :
    writing job (job.afterRetention phase result) = none ∧ planned (job.afterRetention phase result) = none := by
  unfold Job.afterRetention
  split <;> exact ⟨rfl, rfl⟩

theorem mem_addBlob {blob other : Nat} : other ∈ (repo.addBlob blob).blobs ↔ other ∈ repo.blobs ∨ other = blob := by
  unfold Repository.addBlob
  split
  next present =>
    constructor
    · exact .inl
    · rintro (old | rfl)
      · exact old
      · exact present
  next => simp

theorem jobStep_effect {answer : Answer} {pc : JobPc} {next : Repository × JobPc}
    (taken : jobStep rustic job repo answer pc = some next) : JobEffect job repo pc next := by
  cases pc with
  | start =>
    cases taken
    exact .quiet (List.Subset.refl _) (List.Subset.refl _) (begin_quiet job).1 (begin_quiet job).2
  | retention run report pc =>
    simp only [jobStep] at taken
    split at taken
    next result =>
      cases taken
      obtain ⟨unwritten, unplanned⟩ := afterRetention_quiet job run.phase result
      exact .quiet (List.Subset.refl _) (List.Subset.refl _) unwritten unplanned
    next =>
      obtain ⟨state, stepped, rfl⟩ := Option.map_eq_some_iff.mp taken
      exact retention_effect stepped
  | openRepo =>
    cases job with
    | applyRetention policy maxBytes dryRun => cases taken
    | backup snapshot policy maxBytes dryRun =>
      simp only [jobStep] at taken
      split at taken <;> cases taken
      · exact .quiet (List.Subset.refl _) (List.Subset.refl _) rfl rfl
      · refine .opens snapshot rfl rfl rfl rfl ?_
        intro blob member
        by_cases present : blob ∈ repo.blobs
        · exact .inr present
        · exact .inl (by simp [stillMissing, member, present])
  | write missing =>
    cases missing with
    | nil =>
      cases taken
      cases job with
      | applyRetention policy maxBytes dryRun => exact .quiet (List.Subset.refl _) (List.Subset.refl _) rfl rfl
      | backup snapshot policy maxBytes dryRun =>
        exact .writes snapshot rfl rfl (List.Subset.refl _) rfl rfl (by simp [stillMissing])
    | cons blob missing =>
      have snapshots : (repo.addBlob blob).snapshots = repo.snapshots := by
        unfold Repository.addBlob
        split <;> rfl
      have added : repo.blobs ⊆ (repo.addBlob blob).blobs := fun _ old => mem_addBlob.mpr (.inl old)
      simp only [jobStep] at taken
      split at taken <;> cases taken
      · cases job <;> exact .quiet (List.Subset.refl _) (List.Subset.refl _) rfl rfl
      cases job with
      | applyRetention policy maxBytes dryRun => exact .quiet (by simp [snapshots]) added rfl rfl
      | backup snapshot policy maxBytes dryRun =>
        refine .writes snapshot rfl snapshots added rfl rfl ?_
        intro other member
        rcases List.mem_cons.mp member with rfl | later
        · exact .inr (mem_addBlob.mpr (.inr rfl))
        · exact .inl later
  | save =>
    cases job with
    | applyRetention policy maxBytes dryRun => cases taken
    | backup snapshot policy maxBytes dryRun =>
      simp only [jobStep] at taken
      split at taken <;> cases taken
      · exact .quiet (List.Subset.refl _) (List.Subset.refl _) rfl rfl
      · refine .saves snapshot rfl rfl rfl ?_ ?_
        all_goals
          dsimp only
          split <;> rfl
  | done result => cases taken

/-! ### All jobs -/

section Jobs

variable {ι : Type} {jobs : ι → Job}

/-- A saved snapshot, or one a backup is writing, needs the blob. -/
def Needed (jobs : ι → Job) (state : JobsState ι) (blob : Nat) : Prop :=
  (∃ snapshot ∈ state.repo.snapshots, blob ∈ snapshot.blobs) ∨
    ∃ job snapshot, writing (jobs job) (state.pcs job) = some snapshot ∧ blob ∈ snapshot.blobs

/-- A pending prune is going to remove the blob. -/
def Doomed (state : JobsState ι) (blob : Nat) : Prop := ∃ job plan, planned (state.pcs job) = some plan ∧ blob ∈ plan

structure Safe (jobs : ι → Job) (state : JobsState ι) : Prop where
  complete : Complete state.repo
  found : ∀ job snapshot, writing (jobs job) (state.pcs job) = some snapshot →
    ∀ blob ∈ snapshot.blobs, blob ∈ stillMissing (state.pcs job) ∨ blob ∈ state.repo.blobs
  apart : ∀ blob, Needed jobs state blob → ¬Doomed state blob

private theorem writing_start (job : Job) : writing job .start = none := by cases job <;> rfl

theorem Safe.initial (complete : Complete repo) : Safe jobs (jobsStart repo) where
  complete := complete
  found := by simp [jobsStart, writing_start]
  apart := by simp [jobsStart, Doomed, planned]

variable [DecidableEq ι] {state : JobsState ι} {moved : ι} {next : Repository × JobPc} {blob : Nat}

private theorem Needed.before (needed : Needed jobs ⟨next.1, Function.update state.pcs moved next.2⟩ blob)
    (snapshots : ∀ snapshot ∈ next.1.snapshots,
      snapshot ∈ state.repo.snapshots ∨ writing (jobs moved) (state.pcs moved) = some snapshot) :
    Needed jobs state blob ∨ ∃ snapshot, writing (jobs moved) next.2 = some snapshot ∧ blob ∈ snapshot.blobs := by
  rcases needed with ⟨snapshot, member, inside⟩ | ⟨job, snapshot, held, inside⟩
  · rcases snapshots snapshot member with old | held
    · exact .inl (.inl ⟨snapshot, old, inside⟩)
    · exact .inl (.inr ⟨moved, snapshot, held, inside⟩)
  · by_cases same : job = moved
    · subst job
      simp only [Function.update_self] at held
      exact .inr ⟨snapshot, held, inside⟩
    · simp only [Function.update_of_ne same] at held
      exact .inl (.inr ⟨job, snapshot, held, inside⟩)

private theorem Doomed.before (doomed : Doomed ⟨next.1, Function.update state.pcs moved next.2⟩ blob) :
    Doomed state blob ∨ ∃ plan, planned next.2 = some plan ∧ blob ∈ plan := by
  obtain ⟨job, plan, pending, inside⟩ := doomed
  by_cases same : job = moved
  · subst job
    simp only [Function.update_self] at pending
    exact .inr ⟨plan, pending, inside⟩
  · simp only [Function.update_of_ne same] at pending
    exact .inl ⟨job, plan, pending, inside⟩

/-- The blobs of the other backups stay, and the moving one accounts for its own. -/
private theorem found_step (safe : Safe jobs state)
    (kept : ∀ blob, Needed jobs state blob → blob ∈ state.repo.blobs → blob ∈ next.1.blobs)
    (own : ∀ snapshot, writing (jobs moved) next.2 = some snapshot →
      ∀ blob ∈ snapshot.blobs, blob ∈ stillMissing next.2 ∨ blob ∈ next.1.blobs)
    (job : ι) (snapshot : Snapshot)
    (held : writing (jobs job) (Function.update state.pcs moved next.2 job) = some snapshot) (blob : Nat)
    (member : blob ∈ snapshot.blobs) :
    blob ∈ stillMissing (Function.update state.pcs moved next.2 job) ∨ blob ∈ next.1.blobs := by
  by_cases same : job = moved
  · subst job
    rw [Function.update_self] at held ⊢
    exact own snapshot held blob member
  · rw [Function.update_of_ne same] at held ⊢
    exact (safe.found job snapshot held blob member).imp_right (kept blob (.inr ⟨job, snapshot, held, member⟩))

theorem mem_unreferenced : blob ∈ repo.unreferenced ↔
    blob ∈ repo.blobs ∧ ∀ snapshot ∈ repo.snapshots, blob ∉ snapshot.blobs := by
  simp [Repository.unreferenced]

theorem mem_removeBlobs {gone : List Nat} : blob ∈ (repo.removeBlobs gone).blobs ↔ blob ∈ repo.blobs ∧ blob ∉ gone := by
  simp [Repository.removeBlobs]

theorem mem_saveSnapshot {snapshot saved : Snapshot} (member : snapshot ∈ (repo.saveSnapshot saved).snapshots) :
    snapshot ∈ repo.snapshots ∨ snapshot = saved := by
  unfold Repository.saveSnapshot at member
  split at member
  · exact .inl member
  · simpa using member

theorem saveSnapshot_blobs (saved : Snapshot) : (repo.saveSnapshot saved).blobs = repo.blobs := by
  unfold Repository.saveSnapshot
  split <;> rfl

private theorem Safe.plans {answer : Answer} (safe : Safe jobs state) (apart : Apart jobs state (moved, answer))
    (at_pc : planning (state.pcs moved) = true) (repo_same : next.1 = state.repo) (unwritten : writing (jobs moved) next.2 = none)
    (plan : planned next.2 = some state.repo.unreferenced) :
    Safe jobs ⟨next.1, Function.update state.pcs moved next.2⟩ := by
  refine ⟨?_, ?_, ?_⟩
  · simpa only [repo_same] using safe.complete
  · exact found_step safe (by simp [repo_same]) (by simp [unwritten])
  · intro blob needed doomed
    have needed := (needed.before (by simp +contextual [repo_same])).resolve_right (by simp [unwritten])
    rcases doomed.before with old | ⟨fresh, pending, inside⟩
    · exact safe.apart blob needed old
    · rw [plan] at pending
      cases pending
      rcases needed with ⟨snapshot, member, holds⟩ | ⟨job, snapshot, held, holds⟩
      · exact (mem_unreferenced.mp inside).2 snapshot member holds
      · exact apart.1 at_pc job snapshot held blob holds inside

private theorem Safe.prunes {gone : List Nat} (safe : Safe jobs state) (plan : List Nat)
    (at_pc : planned (state.pcs moved) = some plan) (some_of : gone ⊆ plan) (removed : next.1 = state.repo.removeBlobs gone)
    (unwritten : writing (jobs moved) next.2 = none) (unplanned : planned next.2 = none) :
    Safe jobs ⟨next.1, Function.update state.pcs moved next.2⟩ := by
  have kept (blob : Nat) (needed : Needed jobs state blob) (present : blob ∈ state.repo.blobs) : blob ∈ next.1.blobs := by
    rw [removed, mem_removeBlobs]
    exact ⟨present, fun inside => safe.apart blob needed ⟨moved, plan, at_pc, some_of inside⟩⟩
  refine ⟨?_, ?_, ?_⟩
  · intro snapshot member blob inside
    rw [removed] at member
    exact kept blob (.inl ⟨snapshot, member, inside⟩) (safe.complete snapshot member blob inside)
  · exact found_step safe kept (by simp [unwritten])
  · intro blob needed doomed
    have same : next.1.snapshots = state.repo.snapshots := by
      rw [removed]
      rfl
    have needed := (needed.before (by simp +contextual [same])).resolve_right (by simp [unwritten])
    exact safe.apart blob needed (doomed.before.resolve_right (by simp [unplanned]))

private theorem Safe.opens {answer : Answer} (safe : Safe jobs state) (apart : Apart jobs state (moved, answer)) (snapshot : Snapshot)
    (at_pc : opening (jobs moved) (state.pcs moved) = some snapshot) (repo_same : next.1 = state.repo)
    (writes : writing (jobs moved) next.2 = some snapshot) (unplanned : planned next.2 = none)
    (found : ∀ blob ∈ snapshot.blobs, blob ∈ stillMissing next.2 ∨ blob ∈ state.repo.blobs) :
    Safe jobs ⟨next.1, Function.update state.pcs moved next.2⟩ := by
  refine ⟨?_, ?_, ?_⟩
  · simpa only [repo_same] using safe.complete
  · refine found_step safe (by simp [repo_same]) ?_
    intro other held
    rw [writes] at held
    cases held
    rwa [repo_same]
  · intro blob needed doomed
    have doomed := doomed.before.resolve_right (by simp [unplanned])
    rcases needed.before (by simp +contextual [repo_same]) with old | ⟨other, held, inside⟩
    · exact safe.apart blob old doomed
    · rw [writes] at held
      cases held
      obtain ⟨job, plan, pending, inside_plan⟩ := doomed
      exact apart.2 snapshot at_pc job plan pending blob inside inside_plan

private theorem Safe.writes (safe : Safe jobs state) (snapshot : Snapshot) (at_pc : writing (jobs moved) (state.pcs moved) = some snapshot)
    (snapshots : next.1.snapshots = state.repo.snapshots) (added : state.repo.blobs ⊆ next.1.blobs)
    (goes : writing (jobs moved) next.2 = some snapshot) (unplanned : planned next.2 = none)
    (found : ∀ blob ∈ stillMissing (state.pcs moved), blob ∈ stillMissing next.2 ∨ blob ∈ next.1.blobs) :
    Safe jobs ⟨next.1, Function.update state.pcs moved next.2⟩ := by
  refine ⟨?_, ?_, ?_⟩
  · intro other member blob inside
    rw [snapshots] at member
    exact added (safe.complete other member blob inside)
  · refine found_step safe (fun _ _ present => added present) ?_
    intro other held blob member
    rw [goes] at held
    cases held
    rcases safe.found moved snapshot at_pc blob member with missing | present
    · exact found blob missing
    · exact .inr (added present)
  · intro blob needed doomed
    have doomed := doomed.before.resolve_right (by simp [unplanned])
    rcases needed.before (by simp +contextual [snapshots]) with old | ⟨other, held, inside⟩
    · exact safe.apart blob old doomed
    · rw [goes] at held
      cases held
      exact safe.apart blob (.inr ⟨moved, snapshot, at_pc, inside⟩) doomed

private theorem Safe.saves (safe : Safe jobs state) (snapshot : Snapshot) (at_pc : writing (jobs moved) (state.pcs moved) = some snapshot)
    (all_found : stillMissing (state.pcs moved) = []) (saved : next.1 = state.repo.saveSnapshot snapshot)
    (unwritten : writing (jobs moved) next.2 = none) (unplanned : planned next.2 = none) :
    Safe jobs ⟨next.1, Function.update state.pcs moved next.2⟩ := by
  have blobs : next.1.blobs = state.repo.blobs := by rw [saved, saveSnapshot_blobs]
  refine ⟨?_, ?_, ?_⟩
  · intro other member blob inside
    rw [blobs]
    rw [saved] at member
    rcases mem_saveSnapshot member with old | rfl
    · exact safe.complete other old blob inside
    · exact (safe.found moved other at_pc blob inside).resolve_left (by simp [all_found])
  · exact found_step safe (by simp [blobs]) (by simp [unwritten])
  · intro blob needed doomed
    have doomed := doomed.before.resolve_right (by simp [unplanned])
    refine safe.apart blob ((needed.before ?_).resolve_right (by simp [unwritten])) doomed
    intro other member
    rw [saved] at member
    refine (mem_saveSnapshot member).imp_right ?_
    rintro rfl
    exact at_pc

private theorem Safe.effect {answer : Answer} (safe : Safe jobs state) (apart : Apart jobs state (moved, answer))
    (effect : JobEffect (jobs moved) state.repo (state.pcs moved) next) :
    Safe jobs ⟨next.1, Function.update state.pcs moved next.2⟩ := by
  cases effect with
  | quiet snapshots added unwritten unplanned =>
    refine ⟨?_, ?_, ?_⟩
    · exact fun snapshot member blob inside => added (safe.complete snapshot (snapshots member) blob inside)
    · exact found_step safe (fun _ _ present => added present) (by simp [unwritten])
    · intro blob needed doomed
      have needed := (needed.before fun _ member => .inl (snapshots member)).resolve_right (by simp [unwritten])
      exact safe.apart blob needed (doomed.before.resolve_right (by simp [unplanned]))
  | plans at_pc repo_same unwritten plan => exact safe.plans apart at_pc repo_same unwritten plan
  | prunes plan gone at_pc some_of removed unwritten unplanned => exact safe.prunes plan at_pc some_of removed unwritten unplanned
  | opens snapshot at_pc repo_same writes unplanned found => exact safe.opens apart snapshot at_pc repo_same writes unplanned found
  | writes snapshot at_pc snapshots added goes unplanned found => exact safe.writes snapshot at_pc snapshots added goes unplanned found
  | saves snapshot at_pc all_found saved unwritten unplanned => exact safe.saves snapshot at_pc all_found saved unwritten unplanned

theorem Safe.step {event : ι × Answer} {after : JobsState ι} (safe : Safe jobs state) (apart : Apart jobs state event)
    (taken : jobsStep rustic jobs state event = some after) : Safe jobs after := by
  obtain ⟨next, stepped, rfl⟩ := Option.map_eq_some_iff.mp taken
  exact safe.effect apart (jobStep_effect stepped)

end Jobs

/-- Every snapshot keeps all its blobs in a run whose prune plans and index reads stay
clear of each other. -/
theorem apart_jobs_keep_snapshots_complete {ι : Type} [DecidableEq ι] (rustic : Rustic) (jobs : ι → Job) (repo : Repository)
    (events : List (ι × Answer)) (final : JobsState ι) (complete : Complete repo)
    (apart : Guarded (jobsStep rustic jobs) (Apart jobs) (jobsStart repo) events)
    (executed : run (jobsStep rustic jobs) (jobsStart repo) events = some final) : Complete final.repo :=
  (guarded_invariant (fun _ _ _ safe allowed taken => Safe.step safe allowed taken) (Safe.initial complete) apart executed).complete

/-- A backup without retention beside a retention run that has to free ten bytes. -/
def backupAndRetention : Bool → Job
  | false => .backup (dailySnapshot 4 .notSet) none (some 30) false
  | true => .applyRetention { reserveBytes := 10 } (some 30) false

def backupSteps (count : Nat) : List (Bool × Answer) := List.replicate count (false, fullQuota)

def retentionSteps (count : Nat) : List (Bool × Answer) := List.replicate count (true, fullQuota)

/-- The index is read after the prune, though the backup started before it. -/
def orderlyJobs : List (Bool × Answer) := retentionSteps 7 ++ backupSteps 1 ++ retentionSteps 5 ++ backupSteps 4

theorem orderly_jobs_complete : ∃ final,
    run (jobsStep plainRustic backupAndRetention) (jobsStart dailyRepo) orderlyJobs = some final ∧
    dailySnapshot 4 .notSet ∈ final.repo.snapshots ∧ Complete final.repo := by
  have complete := apart_jobs_keep_snapshots_complete plainRustic backupAndRetention dailyRepo orderlyJobs _
    (by decide) (by decide) rfl
  exact ⟨_, rfl, by decide, complete⟩

/-- The plan is made between the backup's last blob and its snapshot, and carried out
after the backup has finished. -/
def overlappedJobs : List (Bool × Answer) := retentionSteps 9 ++ backupSteps 3 ++ retentionSteps 1 ++ backupSteps 2 ++ retentionSteps 1

theorem prune_removes_blob_of_finished_backup : ¬∀ (rustic : Rustic) (jobs : Bool → Job) (repo : Repository)
    (events : List (Bool × Answer)) (final : JobsState Bool), Complete repo →
    run (jobsStep rustic jobs) (jobsStart repo) events = some final →
    Complete final.repo ∧ ∀ job snapshot retention maxBytes dryRun,
      jobs job = .backup snapshot retention maxBytes dryRun → final.pcs job = .done (.ok ()) →
      snapshot ∈ final.repo.snapshots → ∀ blob ∈ snapshot.blobs, blob ∈ final.repo.blobs := by
  intro always
  have restorable := (always plainRustic backupAndRetention dailyRepo overlappedJobs _ (by decide) rfl).2 false _ _ _ _ rfl
    (by decide) (by decide) 4 (by decide)
  exact absurd restorable (by decide)

end Vaulton.Proofs.RepoJobs
