import Vaulton.DryRun
import Vaulton.Proofs.RepoJobs
import Vaulton.Proofs.Retention

/-! What a preview leaves alone. A dry retention run never gets to a deletion or a prune, a
dry restore stops after its plan; a backup writes all the same. -/

namespace Vaulton.Proofs.DryRun
open Vaulton.Lib Vaulton.Retention Vaulton.RepoJobs Vaulton.DryRun
open Vaulton.Proofs.RepoJobs (mem_addBlob)

variable {δ : Type} {rustic : Rustic} {restorer : Restorer δ} {site : Site δ} {answer : Answer}

/-! ### Dry retention runs -/

/-- Positions that only read the repository. -/
def Quiet : RetentionPc → Prop
  | .timeUsage _ _ | .timeDelete _ _ _ | .prune _ _ _ | .roundDelete _ _ _ => False
  | _ => True

theorem quiet_spaceStep (run : RetentionRun) : Quiet run.spaceStep := by
  rcases Proofs.Retention.spaceStep_cases run with stops | ⟨round, goes⟩
  · rw [stops]
    trivial
  · rw [goes]
    trivial

theorem quiet_nextRound (shortage : Shortage) (freed deleted : Nat) : Quiet (nextRound shortage freed deleted) := by
  rcases Proofs.Retention.nextRound_cases shortage freed deleted with stops | ⟨round, goes⟩
  · rw [stops]
    trivial
  · rw [goes]
    trivial

theorem dry_step {run : RetentionRun} {state next : RetentionState} (dry : run.dryRun = true) (quiet : Quiet state.pc)
    (taken : retentionStep rustic run state answer = some next) : next.repo = state.repo ∧ Quiet next.pc := by
  unfold retentionStep at taken
  cases at_pc : state.pc with
  | timeUsage now doomed | timeDelete now doomed before | prune pc instant resume | roundDelete shortage now batch =>
    rw [at_pc] at quiet
    exact quiet.elim
  | begin =>
    simp only [at_pc] at taken
    split at taken
    · cases taken
      exact ⟨rfl, quiet_spaceStep run⟩
    · split at taken <;> cases taken
      · exact ⟨rfl, trivial⟩
      · exact ⟨rfl, quiet_spaceStep run⟩
      · exact ⟨rfl, trivial⟩
  | timeCheck keep =>
    simp only [at_pc] at taken
    split at taken <;> cases taken
    · exact ⟨rfl, quiet_spaceStep run⟩
    · exact ⟨rfl, trivial⟩
  | timeOpen keep | roundCheck round | roundOpen shortage =>
    simp only [at_pc] at taken
    split at taken <;> cases taken <;> exact ⟨rfl, trivial⟩
  | timeList keep =>
    simp only [at_pc, dry, if_true] at taken
    split at taken
    · cases taken
      exact ⟨rfl, trivial⟩
    · split at taken <;> cases taken <;> exact ⟨rfl, quiet_spaceStep run⟩
  | timeFreed before =>
    simp only [at_pc] at taken
    cases taken
    exact ⟨rfl, quiet_spaceStep run⟩
  | roundUsage round =>
    simp only [at_pc] at taken
    split at taken
    · split at taken <;> cases taken <;> exact ⟨rfl, trivial⟩
    · cases taken
      exact ⟨rfl, trivial⟩
  | roundList shortage =>
    simp only [at_pc, dry, if_true] at taken
    split at taken
    · cases taken
      exact ⟨rfl, trivial⟩
    · split at taken <;> cases taken <;> exact ⟨rfl, trivial⟩
  | roundFreed shortage deleted =>
    simp only [at_pc] at taken
    split at taken <;> cases taken
    · exact ⟨rfl, trivial⟩
    · exact ⟨rfl, quiet_nextRound shortage _ deleted⟩
  | finished result =>
    simp only [at_pc] at taken
    cases taken

/-! ### One step of a preview -/

/-- A backup that finds everything in the repository it would write. -/
def Stored (snapshot : Snapshot) (repo : Repository) : Prop :=
  snapshot.id ∈ repo.snapshots.map Snapshot.id ∧ ∀ blob ∈ snapshot.blobs, blob ∈ repo.blobs

instance (snapshot : Snapshot) (repo : Repository) : Decidable (Stored snapshot repo) :=
  inferInstanceAs (Decidable (_ ∧ _))

/-- The positions of a job that changes nothing. -/
def Idle : Job → JobPc → Prop
  | .applyRetention _ _ _, .retention run _ pc => run.dryRun = true ∧ Quiet pc
  | .applyRetention _ _ _, .start | .applyRetention _ _ _, .done _ => True
  | .applyRetention _ _ _, .openRepo | .applyRetention _ _ _, .write _ | .applyRetention _ _ _, .save => False
  | .backup _ _ _ _, .start | .backup _ _ _ _, .openRepo | .backup _ _ _ _, .save | .backup _ _ _ _, .done _ => True
  | .backup _ _ _ _, .write missing => missing = []
  | .backup _ _ _ _, .retention _ _ _ => False

theorem retention_idle {policy : RetentionPolicy} {maxBytes : Option Nat} {repo : Repository} {pc : JobPc}
    {next : Repository × JobPc} (idle : Idle (.applyRetention policy maxBytes true) pc)
    (taken : jobStep rustic (.applyRetention policy maxBytes true) repo answer pc = some next) :
    next.1 = repo ∧ Idle (.applyRetention policy maxBytes true) next.2 := by
  cases pc with
  | start =>
    cases taken
    exact ⟨rfl, rfl, trivial⟩
  | retention run report pc =>
    obtain ⟨dry, quiet⟩ := idle
    simp only [jobStep] at taken
    split at taken
    · cases taken
      cases run.phase <;> exact ⟨rfl, trivial⟩
    · obtain ⟨after, stepped, rfl⟩ := Option.map_eq_some_iff.mp taken
      obtain ⟨same, still⟩ := dry_step dry quiet stepped
      exact ⟨same, dry, still⟩
  | openRepo | write missing | save => exact idle.elim
  | done result => cases taken

theorem saveSnapshot_present {snapshot : Snapshot} {repo : Repository} (present : snapshot.id ∈ repo.snapshots.map Snapshot.id) :
    repo.saveSnapshot snapshot = repo := dif_pos present

theorem backup_idle {snapshot : Snapshot} {retention : Option RetentionPolicy} {maxBytes : Option Nat} {repo : Repository}
    {pc : JobPc} {next : Repository × JobPc} (stored : Stored snapshot repo)
    (idle : Idle (.backup snapshot retention maxBytes true) pc)
    (taken : jobStep rustic (.backup snapshot retention maxBytes true) repo answer pc = some next) :
    next.1 = repo ∧ Idle (.backup snapshot retention maxBytes true) next.2 := by
  cases pc with
  | start =>
    cases taken
    exact ⟨rfl, trivial⟩
  | retention run report pc => exact idle.elim
  | openRepo =>
    simp only [jobStep] at taken
    split at taken <;> cases taken
    · exact ⟨rfl, trivial⟩
    · refine ⟨rfl, ?_⟩
      show List.filter _ snapshot.blobs = []
      rw [List.filter_eq_nil_iff]
      intro blob member
      simp [stored.2 blob member]
  | write missing =>
    cases idle
    cases taken
    exact ⟨rfl, trivial⟩
  | save =>
    simp only [jobStep] at taken
    split at taken <;> cases taken
    · exact ⟨rfl, trivial⟩
    · exact ⟨saveSnapshot_present stored.1, trivial⟩
  | done result => cases taken

/-! ### Whole previews -/

/-- What must be there for a preview to change nothing. No real backup meets its part of
this: the snapshot it saves has an id of its own, also where every blob is known. -/
def Harmless : Request → Option Repository → Prop
  | .repoJob (.backup snapshot _ _ _), repo => ∃ present, repo = some present ∧ Stored snapshot present
  | .repoJob (.applyRetention _ _ _), _ | .restore _ _, _ => True

/-- The request is at a position from which it changes nothing. -/
def AtRest (request : Request) : Pc → Prop
  | .job pc =>
    match request with
    | .repoJob job => Idle job pc
    | .restore _ _ => False
  | .restore => False
  | .openRepo | .readSnapshot | .prepareRestore | .done _ =>
    match request with
    | .repoJob _ => False
    | .restore _ _ => True

theorem repoJob_rests {job : Job} {pc : JobPc} {next : Site δ × JobPc} (dry : jobDryRun job = true)
    (harmless : Harmless (.repoJob job) site.repo) (idle : Idle job pc)
    (taken : repoJobStep rustic job site answer pc = some next) : next.1 = site ∧ Idle job next.2 := by
  cases job with
  | backup snapshot retention maxBytes dryRun =>
    cases dry
    obtain ⟨repo, present, stored⟩ := harmless
    simp only [repoJobStep, present] at taken
    obtain ⟨after, stepped, rfl⟩ := Option.map_eq_some_iff.mp taken
    obtain ⟨same, still⟩ := backup_idle stored idle stepped
    refine ⟨?_, still⟩
    rw [same, ← present]
  | applyRetention policy maxBytes dryRun =>
    cases dry
    cases present : site.repo with
    | some repo =>
      simp only [repoJobStep, present] at taken
      obtain ⟨after, stepped, rfl⟩ := Option.map_eq_some_iff.mp taken
      obtain ⟨same, still⟩ := retention_idle idle stepped
      refine ⟨?_, still⟩
      rw [same, ← present]
    | none =>
      simp only [repoJobStep, present] at taken
      split at taken
      next opening =>
        subst opening
        exact idle.elim
      next =>
        obtain ⟨after, stepped, rfl⟩ := Option.map_eq_some_iff.mp taken
        exact ⟨rfl, (retention_idle idle stepped).2⟩

theorem restore_rests {delete : Bool} {pc : Pc} {next : Site δ × Pc} (rests : AtRest (.restore delete true) pc)
    (taken : restoreStep restorer delete true site answer pc = some next) :
    next.1 = site ∧ AtRest (.restore delete true) next.2 := by
  cases pc with
  | openRepo =>
    simp only [restoreStep] at taken
    split at taken
    · cases taken
      exact ⟨rfl, trivial⟩
    · split at taken <;> cases taken <;> exact ⟨rfl, trivial⟩
  | readSnapshot =>
    simp only [restoreStep] at taken
    split at taken <;> cases taken <;> exact ⟨rfl, trivial⟩
  | prepareRestore =>
    simp only [restoreStep, restorer.prepare_dry, if_true] at taken
    split at taken <;> cases taken <;> exact ⟨rfl, trivial⟩
  | restore | job pc => exact rests.elim
  | done result => cases taken

theorem requestStep_rests {request : Request} {state next : Site δ × Pc} (dry : request.dryRun = true)
    (harmless : Harmless request state.1.repo) (rests : AtRest request state.2)
    (taken : requestStep rustic restorer request state answer = some next) : next.1 = state.1 ∧ AtRest request next.2 := by
  obtain ⟨site, pc⟩ := state
  cases request with
  | restore delete dryRun =>
    cases dry
    exact restore_rests rests taken
  | repoJob job =>
    cases pc with
    | job pc =>
      obtain ⟨after, stepped, rfl⟩ := Option.map_eq_some_iff.mp taken
      exact repoJob_rests dry harmless rests stepped
    | openRepo | readSnapshot | prepareRestore | restore | done result => cases taken

theorem harmless_preview {request : Request} {answers : List Answer} {final : Site δ × Pc} (dry : request.dryRun = true)
    (harmless : Harmless request site.repo)
    (executed : run (requestStep rustic restorer request) (site, request.start) answers = some final) : final.1 = site := by
  have kept : ∀ state answer next, (state.1 = site ∧ AtRest request state.2) →
      requestStep rustic restorer request state answer = some next → next.1 = site ∧ AtRest request next.2 := by
    rintro state answer next ⟨rfl, rests⟩ taken
    exact requestStep_rests dry harmless rests taken
  refine (run_invariant _ kept ⟨rfl, ?_⟩ executed).1
  cases request with
  | repoJob job => cases job <;> trivial
  | restore delete dryRun => trivial

/-! ### A dry backup -/

/-- Everything succeeds. -/
def goodAnswer : Answer := ⟨false, false, none, 0, []⟩

theorem backup_opens {snapshot : Snapshot} {retention : Option RetentionPolicy} {maxBytes : Option Nat} {repo : Repository}
    (present : site.repo = some repo) :
    run (requestStep rustic restorer (.repoJob (.backup snapshot retention maxBytes true))) (site, .job .start)
        [goodAnswer, goodAnswer] =
      some (site, .job (.write (snapshot.blobs.filter fun blob => !repo.blobs.contains blob))) := by
  have same : ({ site with repo := some repo } : Site δ) = site := by rw [← present]
  simp [run, requestStep, repoJobStep, present, jobStep, Job.begin, backupPolicy, goodAnswer, same]

theorem addBlob_changes {repo : Repository} {blob : Nat} (absent : blob ∉ repo.blobs) : repo.addBlob blob ≠ repo := by
  intro same
  have added : blob ∈ (repo.addBlob blob).blobs := mem_addBlob.mpr (.inr rfl)
  rw [same] at added
  exact absent added

theorem saveSnapshot_changes {repo : Repository} {snapshot : Snapshot} (absent : snapshot.id ∉ repo.snapshots.map Snapshot.id) :
    repo.saveSnapshot snapshot ≠ repo := by
  intro same
  have lengths := congrArg (fun repo => repo.snapshots.length) same
  simp [Repository.saveSnapshot, absent] at lengths

/-- A dry backup that could write anything has a run in which it does. -/
theorem dry_backup_writes {snapshot : Snapshot} {retention : Option RetentionPolicy} {maxBytes : Option Nat}
    (harmful : ¬Harmless (.repoJob (.backup snapshot retention maxBytes true)) site.repo) :
    ∃ answers final, run (requestStep rustic restorer (.repoJob (.backup snapshot retention maxBytes true)))
      (site, .job .start) answers = some final ∧ final.1.repo ≠ site.repo := by
  cases present : site.repo with
  | none =>
    refine ⟨[goodAnswer, goodAnswer], ({ site with repo := some emptyRepository }, .job .openRepo), ?_, by simp⟩
    simp [run, requestStep, repoJobStep, present, jobStep, Job.begin, backupPolicy, goodAnswer]
  | some repo =>
    have opened : run (requestStep rustic restorer (.repoJob (.backup snapshot retention maxBytes true))) (site, .job .start)
        [goodAnswer, goodAnswer] = _ := backup_opens present
    cases missing : snapshot.blobs.filter fun blob => !repo.blobs.contains blob with
    | cons blob rest =>
      rw [missing] at opened
      have absent : blob ∉ repo.blobs := by
        have member : blob ∈ snapshot.blobs.filter fun blob => !repo.blobs.contains blob := by
          rw [missing]
          exact List.mem_cons_self
        simpa using (List.mem_filter.mp member).2
      refine ⟨[goodAnswer, goodAnswer] ++ [goodAnswer], ({ site with repo := some (repo.addBlob blob) }, .job (.write rest)),
        run_concat.mpr ⟨_, opened, ?_⟩, ?_⟩
      · simp [requestStep, repoJobStep, present, jobStep, goodAnswer]
      · intro same
        exact addBlob_changes absent (Option.some.inj same)
    | nil =>
      rw [missing] at opened
      have unsaved : snapshot.id ∉ repo.snapshots.map Snapshot.id := by
        intro saved
        apply harmful
        refine ⟨repo, present, saved, ?_⟩
        intro blob member
        simpa using List.filter_eq_nil_iff.mp missing blob member
      refine ⟨[goodAnswer, goodAnswer] ++ [goodAnswer, goodAnswer],
        ({ site with repo := some (repo.saveSnapshot snapshot) }, .job (.done (.ok ()))),
        run_append.mpr ⟨_, opened, ?_⟩, ?_⟩
      · have same : ({ site with repo := some repo } : Site δ) = site := by rw [← present]
        simp [run, requestStep, repoJobStep, present, jobStep, goodAnswer, backupPolicy, same]
      · intro same
        exact saveSnapshot_changes unsaved (Option.some.inj same)

/-- A preview leaves the repository, its existence and the destination as they were in
every run, exactly when it is not a backup, or a backup that finds the repository and
everything in it that it would write. -/
theorem preview_changes_nothing_iff (rustic : Rustic) (restorer : Restorer δ) (request : Request) (site : Site δ)
    (dry : request.dryRun = true) :
    (∀ answers final, run (requestStep rustic restorer request) (site, request.start) answers = some final →
      final.1.repo = site.repo ∧ final.1.dest = site.dest) ↔ Harmless request site.repo := by
  constructor
  · intro unchanged
    by_contra harmful
    cases request with
    | restore delete dryRun => exact harmful trivial
    | repoJob job =>
      cases job with
      | applyRetention policy maxBytes dryRun => exact harmful trivial
      | backup snapshot retention maxBytes dryRun =>
        cases dry
        obtain ⟨answers, final, executed, changed⟩ := dry_backup_writes harmful
        exact changed (unchanged answers final executed).1
  · intro harmless answers final executed
    have same := harmless_preview dry harmless executed
    rw [same]
    exact ⟨rfl, rfl⟩

/-- A destination with two files; a restore would leave one. -/
def plainRestorer : Restorer (List Nat) where
  prepareRestore delete dryRun _ _ dest := if dryRun = false ∧ delete then [] else dest
  restore _ _ _ _ := [1]
  prepare_dry _ _ _ _ := if_neg (by simp)

theorem dry_restore_changes_nothing : ∃ final,
    run (requestStep Proofs.Retention.plainRustic plainRestorer (.restore true true))
      (⟨some Proofs.Retention.dailyRepo, [4, 5]⟩, .openRepo) [goodAnswer, goodAnswer, goodAnswer] = some final ∧
    final.2 = .done (.ok ()) ∧ final.1.repo = some Proofs.Retention.dailyRepo ∧ final.1.dest = [4, 5] :=
  ⟨_, rfl, rfl, (preview_changes_nothing_iff Proofs.Retention.plainRustic plainRestorer (.restore true true)
    ⟨some Proofs.Retention.dailyRepo, [4, 5]⟩ rfl).mpr trivial [goodAnswer, goodAnswer, goodAnswer] _ rfl⟩

def dryBackup : Request := .repoJob (.backup (Proofs.Retention.dailySnapshot 9 .notSet) none none true)

/-- A dry backup into a repository that does not exist creates it, with the snapshot. -/
theorem dry_backup_creates_the_repository : ∃ final,
    run (requestStep Proofs.Retention.plainRustic plainRestorer dryBackup) (⟨none, []⟩, dryBackup.start)
      (List.replicate 6 goodAnswer) = some final ∧
    final.1.repo.map Repository.snapshots = some [Proofs.Retention.dailySnapshot 9 .notSet] ∧
    final.1.repo.map Repository.blobs = some [9] :=
  ⟨_, rfl, rfl, rfl⟩

end Vaulton.Proofs.DryRun
