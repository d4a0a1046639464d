import Vaulton.Lib.Machine
import Vaulton.SnapshotLock
import Vaulton.Proofs.Retention

/-! A locked snapshot leaves the repository only when it is unlocked or forgotten on
purpose. An id stands for one content, so a list that retention or a lock call made of
unlocked snapshots names no locked one. A Forget that has passed its check may name
anything that was not locked then, but a copy that is saved later has an id which nobody
could name. -/

namespace Vaulton.Proofs.SnapshotLock
open Vaulton.Lib Vaulton.Config Vaulton.Retention Vaulton.SnapshotLock Vaulton.Proofs.Retention

variable {hash : SnapshotFile → Nat}

/-! ### The repository -/

theorem mem_deleteSnapshots {repo : LockRepo hash} {ids : List Nat} {file : SnapshotFile} :
    file ∈ (repo.deleteSnapshots ids).files ↔ file ∈ repo.files ∧ hash file ∉ ids := by
  simp [LockRepo.deleteSnapshots]

theorem mem_saveSnapshot {repo : LockRepo hash} {file saved : SnapshotFile} (member : file ∈ repo.files) :
    file ∈ (repo.saveSnapshot saved).files := by
  unfold LockRepo.saveSnapshot
  split
  · exact member
  · exact List.mem_append_left _ member

theorem of_mem_saveSnapshot {repo : LockRepo hash} {file saved : SnapshotFile} (member : file ∈ (repo.saveSnapshot saved).files) :
    file ∈ repo.files ∨ file = saved := by
  unfold LockRepo.saveSnapshot at member
  split at member
  · exact .inl member
  · exact (List.mem_append.mp member).imp_right List.mem_singleton.mp

theorem mem_retain {repo : LockRepo hash} {left : Repository} {file : SnapshotFile} :
    file ∈ (repo.retain left).files ↔ file ∈ repo.files ∧ hash file ∈ left.snapshots.map Snapshot.id := by
  simp [LockRepo.retain]

theorem mem_retain_of_mem {repo : LockRepo hash} {left : Repository} {file : SnapshotFile} (member : file ∈ repo.files)
    (kept : file.snapshot hash ∈ left.snapshots) : file ∈ (repo.retain left).files :=
  mem_retain.mpr ⟨member, List.mem_map_of_mem kept⟩

theorem snapshot_mem {repo : LockRepo hash} {file : SnapshotFile} (member : file ∈ repo.files) :
    file.snapshot hash ∈ repo.repository.snapshots := List.mem_map_of_mem member

/-- The locked snapshot with this id is in the repository. -/
def Present (repo : LockRepo hash) (id : Nat) : Prop := ∃ file ∈ repo.files, hash file = id ∧ file.isLocked = true

/-! ### Retention passes -/

/-- The snapshots that a pass holds a list of. -/
def listed : RetentionPc → List Snapshot
  | .timeUsage _ doomed | .timeDelete _ doomed _ => doomed
  | .roundDelete _ _ batch => batch
  | _ => []

theorem listed_of_idle {pc : RetentionPc} (rests : idle pc = true) : listed pc = [] := by
  cases pc <;> first | rfl | cases rests

/-- Every listed snapshot was read from an unlocked file. -/
def Unlocked (hash : SnapshotFile → Nat) (snapshots : List Snapshot) : Prop :=
  ∀ snapshot ∈ snapshots, ∃ file : SnapshotFile, file.snapshot hash = snapshot ∧ file.isLocked = false

theorem unlocked_nil : Unlocked hash [] := fun _ member => nomatch member

theorem unlocked_of_mustKeep (rustic : Rustic) {repo : LockRepo hash} {now : Int} {snapshot : Snapshot}
    (member : snapshot ∈ repo.repository.snapshots) (free : rustic.mustKeep snapshot now = false) :
    ∃ file : SnapshotFile, file.snapshot hash = snapshot ∧ file.isLocked = false := by
  obtain ⟨file, -, rfl⟩ := List.mem_map.mp member
  refine ⟨file, rfl, ?_⟩
  by_contra locked
  have kept := rustic.keeps_locked (file.snapshot hash) now (eq_true_of_ne_false locked)
  rw [free] at kept
  cases kept

section Retention

variable {rustic : Rustic} {retention : RetentionRun} {repo : LockRepo hash} {report : Report} {pc : RetentionPc}
  {answer : Answer} {next : RetentionState}

theorem listed_unlocked (unlocked : Unlocked hash (listed pc))
    (taken : retentionStep rustic retention ⟨repo.repository, report, pc⟩ answer = some next) :
    Unlocked hash (listed next.pc) := by
  cases retentionStep_effect taken with
  | moves same rests =>
    rw [listed_of_idle rests]
    exact unlocked_nil
  | listsTime keep same at_next =>
    rw [at_next]
    intro snapshot member
    obtain ⟨inside, free⟩ := mem_timeDoomed member
    exact unlocked_of_mustKeep rustic inside free
  | readsUsage now doomed before at_pc same at_next =>
    rw [at_next]
    have here : pc = .timeUsage now doomed := at_pc
    rw [here] at unlocked
    exact unlocked
  | listsSpace shortage same at_next =>
    rw [at_next]
    intro snapshot member
    obtain ⟨inside, free, -⟩ := mem_batch (snapshots_nodup repo.repository) member
    exact unlocked_of_mustKeep rustic inside free
  | deletesTime now doomed before at_pc same rests | deletesSpace shortage now batch at_pc same rests =>
    rw [listed_of_idle rests]
    exact unlocked_nil
  | plans instant resume at_pc same at_next =>
    rw [at_next]
    exact unlocked_nil
  | prunes doomed gone instant resume at_pc planned same rests =>
    rw [listed_of_idle rests]
    exact unlocked_nil

theorem Unlocked.spares (injective : Function.Injective hash) {snapshots : List Snapshot} (unlocked : Unlocked hash snapshots)
    {file : SnapshotFile} (locked : file.isLocked = true) : hash file ∉ snapshots.map Snapshot.id := by
  intro named
  obtain ⟨snapshot, member, same⟩ := List.mem_map.mp named
  obtain ⟨other, rfl, free⟩ := unlocked snapshot member
  have equal : other = file := injective same
  rw [equal, locked] at free
  cases free

theorem deleteListed_spares {left : Repository} {snapshots : List Snapshot} {snapshot : Snapshot}
    (member : snapshot ∈ left.snapshots) (unnamed : snapshot.id ∉ snapshots.map Snapshot.id) :
    snapshot ∈ (deleteListed left answer snapshots).snapshots := by
  unfold deleteListed
  split
  · refine Proofs.Retention.mem_deleteSnapshots.mpr ⟨member, ?_⟩
    intro named
    exact unnamed (List.mem_of_mem_filter named)
  · exact Proofs.Retention.mem_deleteSnapshots.mpr ⟨member, unnamed⟩

theorem retention_keeps (injective : Function.Injective hash) {id : Nat} (unlocked : Unlocked hash (listed pc))
    (present : Present repo id) (taken : retentionStep rustic retention ⟨repo.repository, report, pc⟩ answer = some next) :
    Present (repo.retain next.repo) id := by
  obtain ⟨file, member, same, locked⟩ := present
  refine ⟨file, mem_retain_of_mem member ?_, same, locked⟩
  have inside := snapshot_mem member
  have spared := unlocked.spares injective locked
  cases retentionStep_effect taken with
  | deletesTime now doomed before at_pc left rests =>
    have here : pc = .timeDelete now doomed before := at_pc
    rw [here] at spared
    rw [left]
    exact deleteListed_spares inside spared
  | deletesSpace shortage now batch at_pc left rests =>
    have here : pc = .roundDelete shortage now batch := at_pc
    rw [here] at spared
    rw [left]
    exact deleteListed_spares inside spared
  | prunes doomed gone instant resume at_pc planned left rests =>
    rw [left]
    exact inside
  | moves left rests | listsTime keep left at_next | readsUsage now doomed before at_pc left at_next
  | listsSpace shortage left at_next | plans instant resume at_pc left at_next =>
    rw [left]
    exact inside

end Retention

/-! ### Steps -/

variable {ι : Type} {tasks : ι → Task}

/-- A call that changes a lock does not hold a snapshot that already is as it should be,
and a pass lists unlocked snapshots only. -/
def Fits (hash : SnapshotFile → Nat) : Task → TaskPc → Prop
  | .setSnapshotLock _ _ locked, .lock (.save old) | .setSnapshotLock _ _ locked, .lock (.find old)
  | .setSnapshotLock _ _ locked, .lock (.delete old _) => old.isLocked ≠ locked
  | _, .retention _ pc => Unlocked hash (listed pc)
  | _, _ => True

def Positioned (tasks : ι → Task) (state : LockState hash ι) : Prop := ∀ call, Fits hash (tasks call) (state.pcs call)

/-- A Forget between its check and its deletion. -/
def passed : TaskPc → Bool
  | .forget .delete => true
  | _ => false

/-- No Forget that spares locked snapshots is about to delete this one. -/
def Unnamed (tasks : ι → Task) (state : LockState hash ι) (id : Nat) : Prop :=
  ∀ call ids, tasks call = .forget ids false → passed (state.pcs call) = true → id ∉ ids

def Guarding (tasks : ι → Task) (state : LockState hash ι) : Prop := ∀ id, Present state.repo id → Unnamed tasks state id

/-- The ids that a request names. -/
def named : Task → List Nat
  | .setSnapshotLock _ wanted _ => [wanted]
  | .forget ids _ => ids
  | .retention _ => []

def begun : TaskPc → Bool
  | .lock .acquire | .retention _ .begin | .forget .openRepo => false
  | _ => true

theorem begun_of_passed {pc : TaskPc} (after : passed pc = true) : begun pc = true := by
  cases pc with
  | forget pc =>
    cases pc with
    | delete => rfl
    | openRepo | check | done result => cases after
  | lock pc | retention report pc => cases after

/-- No snapshot of the repository has this id, and no request that has begun names it. -/
def Fresh (tasks : ι → Task) (state : LockState hash ι) (id : Nat) : Prop :=
  id ∉ state.repo.files.map hash ∧ ∀ call, begun (state.pcs call) = true → id ∉ named (tasks call)

/-- The id of the copy that the step saves. -/
def savedId (tasks : ι → Task) (state : LockState hash ι) (event : ι × LockAnswer) : Option Nat :=
  match tasks event.1, state.pcs event.1 with
  | .setSnapshotLock _ _ locked, .lock (.save old) => some (hash (old.withLock locked event.2.nonce))
  | _, _ => none

/-- With a nonce of its own, every copy is saved under an id that is new to everybody. -/
def SavesFresh (tasks : ι → Task) (state : LockState hash ι) (event : ι × LockAnswer) : Prop :=
  ∀ id ∈ savedId tasks state event, Fresh tasks state id

instance [Fintype ι] (tasks : ι → Task) (state : LockState hash ι) (id : Nat) : Decidable (Fresh tasks state id) :=
  inferInstanceAs (Decidable (_ ∧ _))

instance [Fintype ι] (tasks : ι → Task) (state : LockState hash ι) (event : ι × LockAnswer) : Decidable (SavesFresh tasks state event) :=
  inferInstanceAs (Decidable (∀ _ ∈ _, _))

/-- The step is the deletion of an unlock of this snapshot, or of a Forget that names it
and includes locked ones. -/
def Releases (tasks : ι → Task) (state : LockState hash ι) (call : ι) (id : Nat) : Prop :=
  (∃ point wanted old newId, tasks call = .setSnapshotLock point wanted false ∧
    state.pcs call = .lock (.delete old newId) ∧ hash old = id) ∨
  ∃ ids, tasks call = .forget ids true ∧ state.pcs call = .forget .delete ∧ id ∈ ids

/-- What one step of a lock call can do to the repository, and where it leads. -/
inductive LockTurn (wanted : Nat) (wantLocked : Bool) (nonce : Nat) (repo : LockRepo hash) : LockPc → LockRepo hash → LockPc → Prop where
  | failed {pc : LockPc} (error : Status) : LockTurn wanted wantLocked nonce repo pc repo (.done (.error error))
  | opened : LockTurn wanted wantLocked nonce repo .openRepo repo .list
  | already {old : SnapshotFile} (found : repo.files.find? (fun file => hash file = wanted) = some old)
      (same : old.isLocked = wantLocked) :
      LockTurn wanted wantLocked nonce repo .list repo (.done (.ok ⟨hash old, hash old, old.isLocked⟩))
  | found {old : SnapshotFile} (different : old.isLocked ≠ wantLocked) : LockTurn wanted wantLocked nonce repo .list repo (.save old)
  | saved {old : SnapshotFile} :
      LockTurn wanted wantLocked nonce repo (.save old) (repo.saveSnapshot (old.withLock wantLocked nonce)) (.find old)
  | savedAnyway {old : SnapshotFile} (error : Status) :
      LockTurn wanted wantLocked nonce repo (.save old) (repo.saveSnapshot (old.withLock wantLocked nonce)) (.done (.error error))
  | copied {old file : SnapshotFile} (found : repo.files.find? (isCopy hash old wantLocked) = some file) :
      LockTurn wanted wantLocked nonce repo (.find old) repo (.delete old (hash file))
  | removed {old : SnapshotFile} {newId : Nat} : LockTurn wanted wantLocked nonce repo (.delete old newId)
      (repo.deleteSnapshots [hash old]) (.done (.ok ⟨newId, hash old, wantLocked⟩))
  | partlyRemoved {old : SnapshotFile} {newId : Nat} {ids : List Nat} (only : ids ⊆ [hash old]) (error : Status) :
      LockTurn wanted wantLocked nonce repo (.delete old newId) (repo.deleteSnapshots ids) (.done (.error error))

section Calls

variable {wanted nonce : Nat} {wantLocked : Bool} {repo after : LockRepo hash} {answer : LockAnswer} {pc later : LockPc} {point : Uuid}

theorem setLockStep_turn (taken : setLockStep wanted wantLocked repo answer pc = some (after, later)) :
    LockTurn wanted wantLocked answer.nonce repo pc after later := by
  cases pc with
  | acquire | done result => cases taken
  | openRepo =>
    rw [setLockStep] at taken
    split at taken <;> cases taken
    · exact .failed _
    · exact .opened
  | list =>
    rw [setLockStep] at taken
    split at taken
    · cases taken
      exact .failed _
    · split at taken
      · cases taken
        exact .failed _
      next old found =>
        split at taken <;> cases taken
        next same => exact .already found same
        next different => exact .found different
  | save old =>
    rw [setLockStep] at taken
    split at taken <;> cases taken
    · split
      · exact .savedAnyway _
      · exact .failed _
    · exact .saved
  | find old =>
    rw [setLockStep] at taken
    split at taken
    · cases taken
      exact .failed _
    · split at taken <;> cases taken
      next => exact .failed _
      next file found => exact .copied found
  | delete old newId =>
    rw [setLockStep] at taken
    split at taken <;> cases taken
    · exact .partlyRemoved (List.filter_subset_self _) _
    · exact .removed

theorem LockTurn.fits (turn : LockTurn wanted wantLocked nonce repo pc after later)
    (fits : Fits hash (.setSnapshotLock point wanted wantLocked) (.lock pc)) :
    Fits hash (.setSnapshotLock point wanted wantLocked) (.lock later) := by
  cases turn with
  | found different => exact different
  | saved => exact fits
  | copied found => exact fits
  | failed error | opened | already found same | savedAnyway error | removed | partlyRemoved only error => trivial

/-- Locking keeps the locked snapshots; unlocking removes at most the one it unlocks. -/
theorem LockTurn.keeps (turn : LockTurn wanted wantLocked nonce repo pc after later) (injective : Function.Injective hash) {id : Nat}
    (fits : Fits hash (.setSnapshotLock point wanted wantLocked) (.lock pc)) (present : Present repo id)
    (kept : ∀ old newId, pc = .delete old newId → wantLocked = false → hash old ≠ id) : Present after id := by
  obtain ⟨file, member, same, locked⟩ := present
  refine ⟨file, ?_, same, locked⟩
  have spared {old : SnapshotFile} {newId : Nat} {ids : List Nat} (at_pc : pc = .delete old newId) (only : ids ⊆ [hash old]) :
      file ∈ (repo.deleteSnapshots ids).files := by
    subst at_pc
    refine mem_deleteSnapshots.mpr ⟨member, ?_⟩
    intro named
    have equal : hash file = hash old := List.mem_singleton.mp (only named)
    cases lock : wantLocked with
    | false => exact kept old newId rfl lock (equal.symm.trans same)
    | true =>
      have unequal : old.isLocked ≠ wantLocked := fits
      rw [← injective equal, locked, lock] at unequal
      exact unequal rfl
  cases turn with
  | saved | savedAnyway error => exact mem_saveSnapshot member
  | removed => exact spared rfl (List.Subset.refl _)
  | partlyRemoved only error => exact spared rfl only
  | failed error | opened | already found same | found different | copied found => exact member

theorem LockTurn.present {id : Nat} (turn : LockTurn wanted wantLocked nonce repo pc after later) (present : Present after id) :
    Present repo id ∨ ∃ old, pc = .save old ∧ id = hash (old.withLock wantLocked nonce) := by
  obtain ⟨file, member, same, locked⟩ := present
  have saving {old : SnapshotFile} (at_pc : pc = .save old) (member : file ∈ (repo.saveSnapshot (old.withLock wantLocked nonce)).files) :
      Present repo id ∨ ∃ old, pc = .save old ∧ id = hash (old.withLock wantLocked nonce) := by
    rcases of_mem_saveSnapshot member with before | rfl
    · exact .inl ⟨file, before, same, locked⟩
    · exact .inr ⟨old, at_pc, same.symm⟩
  cases turn with
  | saved | savedAnyway error => exact saving rfl member
  | removed | partlyRemoved only error => exact .inl ⟨file, (mem_deleteSnapshots.mp member).1, same, locked⟩
  | failed error | opened | already found same | found different | copied found => exact .inl ⟨file, member, ‹_›, locked⟩

end Calls

section Forgets

variable {ids : List Nat} {includeLocked : Bool} {repo after : LockRepo hash} {answer : Answer} {pc later : ForgetPc} {id : Nat}

theorem forgetStep_keeps (present : Present repo id) (kept : pc = .delete → id ∉ ids)
    (taken : forgetStep ids includeLocked repo answer pc = some (after, later)) : Present after id := by
  obtain ⟨file, member, same, locked⟩ := present
  refine ⟨file, ?_, same, locked⟩
  cases pc with
  | openRepo =>
    rw [forgetStep] at taken
    split at taken <;> cases taken <;> exact member
  | check =>
    rw [forgetStep] at taken
    split at taken
    · cases taken
      exact member
    · split at taken <;> cases taken <;> exact member
  | delete =>
    have spared : hash file ∉ ids := same ▸ kept rfl
    rw [forgetStep] at taken
    split at taken
    · cases taken
      refine mem_deleteSnapshots.mpr ⟨member, ?_⟩
      intro named
      exact spared (List.mem_of_mem_filter named)
    · cases taken
      exact mem_deleteSnapshots.mpr ⟨member, spared⟩
  | done result => cases taken

theorem forgetStep_present (present : Present after id)
    (taken : forgetStep ids includeLocked repo answer pc = some (after, later)) : Present repo id := by
  obtain ⟨file, member, same, locked⟩ := present
  refine ⟨file, ?_, same, locked⟩
  cases pc with
  | openRepo =>
    rw [forgetStep] at taken
    split at taken <;> cases taken <;> exact member
  | check =>
    rw [forgetStep] at taken
    split at taken
    · cases taken
      exact member
    · split at taken <;> cases taken <;> exact member
  | delete =>
    rw [forgetStep] at taken
    split at taken <;> cases taken <;> exact (mem_deleteSnapshots.mp member).1
  | done result => cases taken

theorem check_refuses (present : Present repo id) (taken : forgetStep ids false repo answer pc = some (after, .delete)) :
    id ∉ ids := by
  obtain ⟨file, member, same, locked⟩ := present
  intro named
  cases pc with
  | openRepo =>
    rw [forgetStep] at taken
    split at taken <;> cases taken
  | check =>
    have among : hash file ∈ lockedAmong repo ids := by
      apply List.mem_map_of_mem
      simp [member, locked, same, named]
    rw [forgetStep] at taken
    split at taken
    · cases taken
    · rw [if_pos (List.ne_nil_of_mem among)] at taken
      cases taken
  | delete =>
    rw [forgetStep] at taken
    split at taken <;> cases taken
  | done result => cases taken

end Forgets

section Steps

variable [DecidableEq ι] {rustic : Rustic} {state next : LockState hash ι} {event : ι × LockAnswer} {id : Nat}

/-- What a step of the system is: a step of the task that moves. -/
inductive Moves (rustic : Rustic) (tasks : ι → Task) (state : LockState hash ι) (call : ι) (answer : LockAnswer)
    (next : LockState hash ι) : Prop where
  | acquire (point : Uuid) (wanted : Nat) (locked : Bool) (task : tasks call = .setSnapshotLock point wanted locked)
      (at_pc : state.pcs call = .lock .acquire) (repo : next.repo = state.repo)
      (pcs : next.pcs = Function.update state.pcs call (.lock .openRepo))
  | lock (point : Uuid) (wanted : Nat) (locked : Bool) (pc later : LockPc)
      (task : tasks call = .setSnapshotLock point wanted locked) (at_pc : state.pcs call = .lock pc)
      (step : setLockStep wanted locked state.repo answer pc = some (next.repo, later))
      (pcs : next.pcs = Function.update state.pcs call (.lock later))
  | retention (pass : RetentionRun) (report : Report) (pc : RetentionPc) (later : RetentionState)
      (task : tasks call = .retention pass) (at_pc : state.pcs call = .retention report pc)
      (step : retentionStep rustic pass ⟨state.repo.repository, report, pc⟩ answer.toAnswer = some later)
      (repo : next.repo = state.repo.retain later.repo)
      (pcs : next.pcs = Function.update state.pcs call (.retention later.report later.pc))
  | forget (ids : List Nat) (includeLocked : Bool) (pc later : ForgetPc) (task : tasks call = .forget ids includeLocked)
      (at_pc : state.pcs call = .forget pc)
      (step : forgetStep ids includeLocked state.repo answer.toAnswer pc = some (next.repo, later))
      (pcs : next.pcs = Function.update state.pcs call (.forget later))

theorem lockStep_moves (taken : lockStep rustic tasks state event = some next) :
    Moves rustic tasks state event.1 event.2 next := by
  obtain ⟨call, answer⟩ := event
  unfold lockStep at taken
  dsimp only at taken
  split at taken
  next point wanted locked task at_pc =>
    split at taken
    · cases taken
    · cases taken
      exact .acquire point wanted locked task at_pc rfl rfl
  next point wanted locked pc _ task at_pc =>
    obtain ⟨result, step, rfl⟩ := Option.map_eq_some_iff.mp taken
    exact .lock point wanted locked pc result.2 task at_pc step rfl
  next pass report pc task at_pc =>
    obtain ⟨later, step, rfl⟩ := Option.map_eq_some_iff.mp taken
    exact .retention pass report pc later task at_pc step rfl rfl
  next ids includeLocked pc task at_pc =>
    obtain ⟨result, step, rfl⟩ := Option.map_eq_some_iff.mp taken
    exact .forget ids includeLocked pc result.2 task at_pc step rfl
  next => cases taken

theorem Positioned.step (positioned : Positioned tasks state) (taken : lockStep rustic tasks state event = some next) :
    Positioned tasks next := by
  have here := positioned event.1
  have move {pc : TaskPc} (pcs : next.pcs = Function.update state.pcs event.1 pc) (fits : Fits hash (tasks event.1) pc) :
      Positioned tasks next := by
    intro call
    rw [pcs]
    exact forall_update (fun call => Fits hash (tasks call)) positioned fits call
  cases lockStep_moves taken with
  | acquire point wanted locked task at_pc repo pcs =>
    refine move pcs ?_
    rw [task]
    trivial
  | lock point wanted locked pc later task at_pc step pcs =>
    rw [task, at_pc] at here
    refine move pcs ?_
    rw [task]
    exact (setLockStep_turn step).fits here
  | retention pass report pc later task at_pc step repo pcs =>
    rw [task, at_pc] at here
    refine move pcs ?_
    rw [task]
    exact listed_unlocked here step
  | forget ids includeLocked pc later task at_pc step pcs =>
    refine move pcs ?_
    rw [task]
    trivial

/-- A locked snapshot stays, unless the step releases it. -/
theorem present_step (injective : Function.Injective hash) (positioned : Positioned tasks state) (guarding : Guarding tasks state)
    (present : Present state.repo id) (taken : lockStep rustic tasks state event = some next) :
    Present next.repo id ∨ Releases tasks state event.1 id := by
  have here := positioned event.1
  cases lockStep_moves taken with
  | acquire point wanted locked task at_pc repo pcs =>
    rw [repo]
    exact .inl present
  | lock point wanted locked pc later task at_pc step pcs =>
    rw [task, at_pc] at here
    by_cases release : ∃ old newId, pc = .delete old newId ∧ locked = false ∧ hash old = id
    · obtain ⟨old, newId, rfl, rfl, same⟩ := release
      exact .inr (.inl ⟨point, wanted, old, newId, task, at_pc, same⟩)
    · have kept : ∀ old newId, pc = .delete old newId → locked = false → hash old ≠ id :=
        fun old newId at_delete unlocks same => release ⟨old, newId, at_delete, unlocks, same⟩
      exact .inl ((setLockStep_turn step).keeps injective here present kept)
  | retention pass report pc later task at_pc step repo pcs =>
    rw [task, at_pc] at here
    rw [repo]
    exact .inl (retention_keeps injective here present step)
  | forget ids includeLocked pc later task at_pc step pcs =>
    by_cases release : pc = .delete ∧ id ∈ ids
    · cases includeLocked with
      | true => exact .inr (.inr ⟨ids, task, release.1 ▸ at_pc, release.2⟩)
      | false =>
        have spared := guarding id present event.1 ids task (by rw [at_pc, release.1]; rfl)
        exact absurd release.2 spared
    · have kept : pc = .delete → id ∉ ids := fun at_delete named => release ⟨at_delete, named⟩
      exact .inl (forgetStep_keeps present kept step)

/-- Whoever passes the check now has seen every locked snapshot; one that is saved now was
known to nobody who has passed. -/
theorem Guarding.step (guarding : Guarding tasks state) (fresh : SavesFresh tasks state event)
    (taken : lockStep rustic tasks state event = some next) : Guarding tasks next := by
  intro id present
  have still {pc : TaskPc} (pcs : next.pcs = Function.update state.pcs event.1 pc) (quiet : passed pc = false)
      (unnamed : Unnamed tasks state id) : Unnamed tasks next id := by
    intro call ids task after
    rw [pcs] at after
    rcases of_update (fun pc => passed pc = true) after with ⟨-, wrong⟩ | ⟨-, before⟩
    · rw [quiet] at wrong
      cases wrong
    · exact unnamed call ids task before
  cases lockStep_moves taken with
  | acquire point wanted locked task at_pc repo pcs =>
    rw [repo] at present
    exact still pcs rfl (guarding id present)
  | lock point wanted locked pc later task at_pc step pcs =>
    apply still pcs rfl
    rcases (setLockStep_turn step).present present with before | ⟨old, rfl, rfl⟩
    · exact guarding id before
    · have new := fresh (hash (old.withLock locked event.2.nonce)) (by simp [savedId, task, at_pc])
      intro call ids forgets after
      have unknown := new.2 call (begun_of_passed after)
      rwa [forgets] at unknown
  | retention pass report pc later task at_pc step repo pcs =>
    rw [repo] at present
    obtain ⟨file, member, same⟩ := present
    exact still pcs rfl (guarding id ⟨file, (mem_retain.mp member).1, same⟩)
  | forget ids includeLocked pc later task at_pc step pcs =>
    have before := forgetStep_present present step
    intro call others other after
    rw [pcs] at after
    rcases of_update (fun pc => passed pc = true) after with ⟨rfl, reached⟩ | ⟨-, waiting⟩
    · cases task.symm.trans other
      cases later with
      | delete => exact check_refuses before step
      | _ => cases reached
    · exact guarding id before call others other waiting

end Steps

/-! ### Runs -/

/-- The call has found the snapshot whose id it returns. -/
def Holds (pc : TaskPc) (id : Nat) : Prop :=
  (∃ old, pc = .lock (.delete old id)) ∨ ∃ reply : LockReply, pc = .lock (.done (.ok reply)) ∧ reply.snapshotId = id

theorem LockTurn.holds {repo after : LockRepo hash} {wanted nonce id : Nat} {pc later : LockPc}
    (turn : LockTurn wanted true nonce repo pc after later) (holds : Holds (.lock later) id) :
    Holds (.lock pc) id ∨ Present repo id ∧ after = repo := by
  cases turn with
  | @already old found locked =>
    rcases holds with ⟨old, wrong⟩ | ⟨reply, same, rfl⟩
    · cases wrong
    · cases same
      exact .inr ⟨⟨old, List.mem_of_find?_eq_some found, rfl, locked⟩, rfl⟩
  | @copied old file found =>
    rcases holds with ⟨other, same⟩ | ⟨reply, wrong, -⟩
    · cases same
      have copy := List.find?_some found
      simp only [isCopy, Bool.and_eq_true, beq_iff_eq] at copy
      exact .inr ⟨⟨file, List.mem_of_find?_eq_some found, rfl, copy.2⟩, rfl⟩
    · cases wrong
  | removed =>
    rcases holds with ⟨old, wrong⟩ | ⟨reply, same, rfl⟩
    · cases wrong
    · cases same
      exact .inl (.inl ⟨_, rfl⟩)
  | failed error | opened | found different | saved | savedAnyway error | partlyRemoved only error =>
    rcases holds with ⟨old, wrong⟩ | ⟨reply, wrong, -⟩ <;> cases wrong

section Runs

variable [DecidableEq ι] {rustic : Rustic} {state next : LockState hash ι} {event : ι × LockAnswer} {id : Nat}

/-- What a call that locks a snapshot holds after a step, it held before, or it has found
it with this step. -/
theorem holds_before {call : ι} {point : Uuid} {wanted : Nat} (task : tasks call = .setSnapshotLock point wanted true)
    (taken : lockStep rustic tasks state event = some next) (holds : Holds (next.pcs call) id) :
    Holds (state.pcs call) id ∨ Present next.repo id := by
  have own {pc : TaskPc} (pcs : next.pcs = Function.update state.pcs event.1 pc) :
      call = event.1 ∧ Holds pc id ∨ call ≠ event.1 ∧ Holds (state.pcs call) id := by
    rw [pcs] at holds
    exact of_update (fun pc => Holds pc id) holds
  cases lockStep_moves taken with
  | acquire point wanted locked same at_pc repo pcs =>
    rcases own pcs with ⟨-, wrong⟩ | ⟨-, before⟩
    · rcases wrong with ⟨old, wrong⟩ | ⟨reply, wrong, -⟩ <;> cases wrong
    · exact .inl before
  | lock point wanted locked pc later same at_pc step pcs =>
    rcases own pcs with ⟨rfl, after⟩ | ⟨-, before⟩
    · cases task.symm.trans same
      rcases (setLockStep_turn step).holds after with before | ⟨present, unchanged⟩
      · rw [at_pc]
        exact .inl before
      · rw [unchanged]
        exact .inr present
    · exact .inl before
  | retention pass report pc later same at_pc step repo pcs =>
    rcases own pcs with ⟨rfl, -⟩ | ⟨-, before⟩
    · cases task.symm.trans same
    · exact .inl before
  | forget ids includeLocked pc later same at_pc step pcs =>
    rcases own pcs with ⟨rfl, -⟩ | ⟨-, before⟩
    · cases task.symm.trans same
    · exact .inl before

omit [DecidableEq ι] in
theorem Positioned.start (repo : LockRepo hash) : Positioned tasks (lockStart tasks repo) := by
  intro call
  change Fits hash (tasks call) (tasks call).start
  cases tasks call with
  | retention pass => exact unlocked_nil
  | setSnapshotLock point wanted locked | forget ids includeLocked => trivial

omit [DecidableEq ι] in
theorem Guarding.start (repo : LockRepo hash) : Guarding tasks (lockStart tasks repo) := by
  intro id present call ids task after
  simp only [lockStart, task, Task.start, passed] at after
  cases after

theorem positioned_run {repo : LockRepo hash} {events : List (ι × LockAnswer)}
    (executed : run (lockStep rustic tasks) (lockStart tasks repo) events = some state) : Positioned tasks state :=
  run_invariant (Positioned tasks) (fun _ _ _ positioned taken => positioned.step taken) (Positioned.start repo) executed

/-- Whatever a call to lock a snapshot has found is there, or it has been released since. -/
theorem held_run (injective : Function.Injective hash) {repo : LockRepo hash} {events : List (ι × LockAnswer)}
    (fresh : Guarded (lockStep rustic tasks) (SavesFresh tasks) (lockStart tasks repo) events)
    (executed : run (lockStep rustic tasks) (lockStart tasks repo) events = some state) {call : ι} {point : Uuid} {wanted : Nat}
    (task : tasks call = .setSnapshotLock point wanted true) :
    Guarding tasks state ∧ (Holds (state.pcs call) id → Present state.repo id ∨
      ∃ before event after, Occurs (lockStep rustic tasks) (lockStart tasks repo) events before event after ∧
        Holds (before.pcs call) id ∧ Releases tasks before event.1 id) := by
  refine guarded_history (fun events state => Guarding tasks state ∧ (Holds (state.pcs call) id → Present state.repo id ∨
    ∃ before event after, Occurs (lockStep rustic tasks) (lockStart tasks repo) events before event after ∧
      Holds (before.pcs call) id ∧ Releases tasks before event.1 id)) ⟨Guarding.start repo, ?_⟩ ?_ fresh executed
  · intro holds
    rw [lockStart] at holds
    dsimp only at holds
    rw [task] at holds
    rcases holds with ⟨old, wrong⟩ | ⟨reply, wrong, -⟩ <;> cases wrong
  · intro prior state event next reached known allowed taken
    obtain ⟨guarding, known⟩ := known
    refine ⟨guarding.step allowed taken, ?_⟩
    intro holds
    rcases holds_before task taken holds with before | present
    · rcases known before with present | ⟨first, other, last, occurs, held, released⟩
      · rcases present_step injective (positioned_run reached) guarding present taken with stays | released
        · exact .inl stays
        · exact .inr ⟨state, event, next, Occurs.last reached taken, before, released⟩
      · exact .inr ⟨first, other, last, occurs.concat, held, released⟩
    · exact .inl present

/-- The snapshot whose id a call to lock has returned stays, locked, until an unlock or a
Forget that includes locked snapshots deletes it, however the calls, passes and jobs
overlap and fail. -/
theorem locked_snapshots_stay (rustic : Rustic) (injective : Function.Injective hash)
    (tasks : ι → Task) (repo : LockRepo hash) (events : List (ι × LockAnswer)) (final : LockState hash ι)
    (fresh : Guarded (lockStep rustic tasks) (SavesFresh tasks) (lockStart tasks repo) events)
    (executed : run (lockStep rustic tasks) (lockStart tasks repo) events = some final) :
    ∀ call point wanted reply, tasks call = .setSnapshotLock point wanted true →
      final.pcs call = .lock (.done (.ok reply)) →
      Present final.repo reply.snapshotId ∨
        ∃ state event next, Occurs (lockStep rustic tasks) (lockStart tasks repo) events state event next ∧
          Holds (state.pcs call) reply.snapshotId ∧ Releases tasks state event.1 reply.snapshotId := by
  intro call point wanted reply task returned
  have holds : Holds (final.pcs call) reply.snapshotId := .inr ⟨reply, returned, rfl⟩
  exact (held_run injective fresh executed task).2 holds

end Runs

/-! ### A Forget beside a lock -/

def textCode (text : String) : List Nat := text.toList.map Char.toNat

theorem textCode_injective : Function.Injective textCode := by
  have chars : Function.Injective (List.map Char.toNat) := List.map_injective_iff.mpr fun _ _ => Char.toNat_inj.mp
  exact chars.comp fun _ _ => String.toList_inj.mp

def deleteCode : DeleteOption → Option (Option Int)
  | .notSet => none
  | .never => some none
  | .after time => some (some time)

theorem deleteCode_injective : Function.Injective deleteCode := by
  intro first second same
  cases first <;> cases second <;> simp_all [deleteCode]

/-- A hash without collisions: the code of all fields. -/
def fileCode (file : SnapshotFile) : Nat :=
  Encodable.encode (file.time, textCode file.hostname, textCode file.label, file.paths.map textCode,
    file.tags.map textCode, file.tree, deleteCode file.delete, file.dataAddedPacked, file.blobs, textCode file.rest, file.nonce)

theorem fileCode_injective : Function.Injective fileCode := by
  intro first second same
  have fields := Encodable.encode_injective same
  have texts : Function.Injective (List.map textCode) := List.map_injective_iff.mpr textCode_injective
  simp only [Prod.mk.injEq, textCode_injective.eq_iff, texts.eq_iff, deleteCode_injective.eq_iff] at fields
  obtain ⟨time, hostname, label, paths, tags, tree, delete, added, blobs, rest, nonce⟩ := fields
  cases first
  cases second
  simp_all

def sunday (locked : Bool) (nonce : Nat) : SnapshotFile :=
  SnapshotFile.withLock ⟨0, "", "", [], [], 0, .notSet, none, [], "", 0⟩ locked nonce

/-- A repository with one snapshot, which is locked. -/
def sundayRepo : LockRepo fileCode where
  files := [sunday true 0]
  blobs := []
  distinct := List.nodup_singleton _

inductive Client where
  | unlocks
  | relocks
  | forgetsFirst
  | forgetsLast
  deriving DecidableEq

instance : Fintype Client where
  elems := {.unlocks, .relocks, .forgetsFirst, .forgetsLast}
  complete client := by cases client <;> decide

def clientTasks : Client → Task
  | .unlocks => .setSnapshotLock 0 (fileCode (sunday true 0)) false
  | .relocks => .setSnapshotLock 0 (fileCode (sunday false 1)) true
  | .forgetsFirst => .forget [fileCode (sunday true 0)] false
  | .forgetsLast => .forget [fileCode (sunday true 2)] false

def served (nonce : Nat) : LockAnswer := ⟨⟨false, false, none, 0, []⟩, nonce⟩

def turns (client : Client) (nonce count : Nat) : List (Client × LockAnswer) := List.replicate count (client, served nonce)

/-- The snapshot is unlocked, a Forget of its old id passes the check, the snapshot is
locked again, and the Forget goes on; another names the locked copy. -/
def forgetBetween : List (Client × LockAnswer) :=
  turns .unlocks 1 6 ++ turns .forgetsFirst 0 2 ++ turns .relocks 2 6 ++ turns .forgetsFirst 0 1 ++ turns .forgetsLast 0 2

def atDelete : TaskPc → Bool
  | .lock (.delete _ _) => true
  | _ => false

def found : TaskPc → Bool
  | .lock (.delete _ _) | .lock (.done (.ok _)) => true
  | _ => false

/-- Only the unlock could release the snapshot, and it is over before the lock finds it. -/
theorem never_released {events : List (Client × LockAnswer)} (apart : Guarded (lockStep plainRustic clientTasks)
      (fun state _ => atDelete (state.pcs .unlocks) = false ∨ found (state.pcs .relocks) = false)
      (lockStart clientTasks sundayRepo) events)
    {state next : LockState fileCode Client} {event : Client × LockAnswer} {id : Nat}
    (occurs : Occurs (lockStep plainRustic clientTasks) (lockStart clientTasks sundayRepo) events state event next)
    (holds : Holds (state.pcs .relocks) id) : ¬Releases clientTasks state event.1 id := by
  have moment := guard_of_occurs apart occurs
  have holding : found (state.pcs .relocks) = true := by
    rcases holds with ⟨old, same⟩ | ⟨reply, same, -⟩ <;> rw [same] <;> rfl
  rw [holding] at moment
  intro released
  rcases released with ⟨point, wanted, old, newId, task, at_pc, -⟩ | ⟨ids, task, -⟩
  · cases client : event.1 with
    | unlocks =>
      rw [client] at at_pc
      rw [at_pc] at moment
      rcases moment with wrong | wrong <;> cases wrong
    | relocks | forgetsFirst | forgetsLast =>
      rw [client] at task
      cases task
  · cases client : event.1 <;> rw [client] at task <;> cases task

theorem relocked_snapshot_stays : ∃ final reply,
    run (lockStep plainRustic clientTasks) (lockStart clientTasks sundayRepo) forgetBetween = some final ∧
    final.pcs .relocks = .lock (.done (.ok reply)) ∧ final.pcs .forgetsFirst = .forget (.done (.ok ())) ∧
    final.pcs .forgetsLast = .forget (.done (refusal [fileCode (sunday true 2)])) ∧ Present final.repo reply.snapshotId := by
  refine ⟨_, _, rfl, rfl, rfl, rfl, ?_⟩
  have stays := locked_snapshots_stay plainRustic fileCode_injective clientTasks sundayRepo forgetBetween _
    (by decide) rfl .relocks _ _ _ rfl rfl
  refine stays.resolve_right ?_
  intro released
  obtain ⟨state, event, next, occurs, holds, release⟩ := released
  exact never_released (by decide) occurs holds release

end Vaulton.Proofs.SnapshotLock
