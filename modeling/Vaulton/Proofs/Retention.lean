import Vaulton.Lib.Machine
import Vaulton.Retention

/-! What a retention run may delete. Each deletion works on a list computed from the
snapshots the run has just read, so the proofs first describe these lists and then
carry "the list belongs to the present snapshots" along the run. -/

namespace Vaulton.Proofs.Retention
open Vaulton.Lib Vaulton.Quota Vaulton.Retention

variable {rustic : Rustic} {all : List Snapshot} {now : Int}

/-! ### Lists of snapshots -/

instance : Std.Total fun first second : Snapshot => first.time ≤ second.time := ⟨fun _ _ => le_total _ _⟩

instance : IsTrans Snapshot fun first second => first.time ≤ second.time := ⟨fun _ _ _ => le_trans⟩

theorem sortByTime_perm (snapshots : List Snapshot) : (sortByTime snapshots).Perm snapshots :=
  List.perm_insertionSort _ snapshots

@[simp] theorem mem_sortByTime {snapshot : Snapshot} {snapshots : List Snapshot} :
    snapshot ∈ sortByTime snapshots ↔ snapshot ∈ snapshots := (sortByTime_perm snapshots).mem_iff

theorem sortByTime_sorted (snapshots : List Snapshot) :
    (sortByTime snapshots).Pairwise fun first second => first.time ≤ second.time := List.pairwise_insertionSort _ snapshots

/-- The snapshot of each group that the space rule sets aside. -/
def keptNewest (rustic : Rustic) (all : List Snapshot) : List Snapshot :=
  (rustic.fromItems all).filterMap fun group => (sortByTime group).getLast?

/-- Deletable in a round: not protected, and not the snapshot its group keeps. -/
def Deletable (rustic : Rustic) (all : List Snapshot) (now : Int) (snapshot : Snapshot) : Prop :=
  snapshot ∈ all ∧ rustic.mustKeep snapshot now = false ∧ snapshot ∉ keptNewest rustic all

theorem mem_group (rustic : Rustic) {snapshot : Snapshot} : snapshot ∈ all ↔ ∃ group ∈ rustic.fromItems all, snapshot ∈ group := by
  rw [← (rustic.partitions all).covers.mem_iff, List.mem_flatten]

instance : Std.Symm Separate :=
  ⟨fun _ _ separate first first_mem second second_mem => (separate second second_mem first first_mem).symm⟩

theorem group_unique {left right : List Snapshot} {first second : Snapshot} (left_group : left ∈ rustic.fromItems all)
    (right_group : right ∈ rustic.fromItems all) (first_mem : first ∈ left) (second_mem : second ∈ right)
    (same : first.group = second.group) : left = right := by
  by_contra different
  have apart : Separate left right := (rustic.partitions all).separate.forall left_group right_group different
  exact apart first first_mem second second_mem same

private theorem sorted_split {group : List Snapshot} (nonempty : group ≠ []) :
    ∃ newest, (sortByTime group).getLast? = some newest ∧ sortByTime group = (sortByTime group).dropLast ++ [newest] := by
  have nonempty : sortByTime group ≠ [] := by
    intro empty
    have sizes := (sortByTime_perm group).length_eq
    rw [empty] at sizes
    exact nonempty (List.length_eq_zero_iff.mp sizes.symm)
  exact ⟨(sortByTime group).getLast nonempty, List.getLast?_eq_getLast_of_ne_nil nonempty,
    (List.dropLast_concat_getLast nonempty).symm⟩

/-- The space rule's candidates are exactly the deletable snapshots. -/
theorem mem_fifoCandidates (distinct : all.Nodup) {snapshot : Snapshot} :
    snapshot ∈ fifoCandidates rustic all now ↔ Deletable rustic all now snapshot := by
  have flat : (rustic.fromItems all).flatten.Nodup := (rustic.partitions all).covers.nodup_iff.mpr distinct
  simp only [fifoCandidates, mem_sortByTime, List.mem_flatMap, List.mem_filter, Bool.not_eq_true', Deletable]
  constructor
  · intro ⟨group, member, inside, free⟩
    obtain ⟨newest, last, split⟩ := sorted_split ((rustic.partitions all).nonempty group member)
    have in_group : snapshot ∈ group := mem_sortByTime.mp (List.dropLast_subset _ inside)
    refine ⟨(mem_group rustic).mpr ⟨group, member, in_group⟩, free, ?_⟩
    intro kept
    obtain ⟨other, other_member, other_last⟩ := List.mem_filterMap.mp kept
    have in_other : snapshot ∈ other := mem_sortByTime.mp (List.mem_of_getLast? other_last)
    obtain rfl := group_unique other_member member in_other in_group rfl
    rw [last] at other_last
    cases other_last
    have nodup : (sortByTime other).Nodup :=
      (sortByTime_perm other).nodup_iff.mpr ((List.nodup_flatten.mp flat).1 other member)
    rw [split] at nodup
    exact (List.nodup_append.mp nodup).2.2 snapshot inside snapshot (by simp) rfl
  · intro ⟨member, free, spared⟩
    obtain ⟨group, group_member, in_group⟩ := (mem_group rustic).mp member
    obtain ⟨newest, last, split⟩ := sorted_split ((rustic.partitions all).nonempty group group_member)
    refine ⟨group, group_member, ?_, free⟩
    have sorted := mem_sortByTime.mpr in_group
    rw [split, List.mem_append, List.mem_singleton] at sorted
    rcases sorted with inside | rfl
    · exact inside
    · exact absurd (List.mem_filterMap.mpr ⟨group, group_member, last⟩) spared

/-- Every group keeps a snapshot that carries its greatest time. -/
theorem keptNewest_greatest (rustic : Rustic) {snapshot : Snapshot} (member : snapshot ∈ all) :
    ∃ newest ∈ keptNewest rustic all, newest ∈ all ∧ newest.group = snapshot.group ∧
      ∀ other ∈ all, other.group = snapshot.group → other.time ≤ newest.time := by
  obtain ⟨group, group_member, in_group⟩ := (mem_group rustic).mp member
  obtain ⟨newest, last, split⟩ := sorted_split ((rustic.partitions all).nonempty group group_member)
  have newest_in : newest ∈ group := mem_sortByTime.mp (List.mem_of_getLast? last)
  refine ⟨newest, List.mem_filterMap.mpr ⟨group, group_member, last⟩, (mem_group rustic).mpr ⟨group, group_member, newest_in⟩,
    (rustic.partitions all).uniform group group_member newest newest_in snapshot in_group, ?_⟩
  intro other other_member same
  obtain ⟨home, home_member, in_home⟩ := (mem_group rustic).mp other_member
  obtain rfl := group_unique home_member group_member in_home in_group same
  have sorted := sortByTime_sorted home
  have inside := mem_sortByTime.mpr in_home
  rw [split] at sorted inside
  rcases List.mem_append.mp inside with before | at_end
  · exact (List.pairwise_append.mp sorted).2.2 other before newest (by simp)
  · rw [List.mem_singleton.mp at_end]

theorem takeBatch_append (deficit minBatch estimate : Nat) (batch candidates : List Snapshot) :
    ∃ left, takeBatch deficit minBatch estimate batch candidates ++ left = batch ++ candidates := by
  induction candidates generalizing estimate batch with
  | nil => exact ⟨[], rfl⟩
  | cons snapshot rest ih =>
    simp only [takeBatch]
    split
    · exact ⟨rest, by simp⟩
    · obtain ⟨left, whole⟩ := ih (saturatingAdd estimate (addedBytes snapshot)) (batch ++ [snapshot])
      exact ⟨left, by simp [whole]⟩

theorem batch_oldest_first (distinct : all.Nodup) (deficit minBatch : Nat) {deleted left : Snapshot}
    (taken : deleted ∈ takeBatch deficit minBatch 0 [] (fifoCandidates rustic all now))
    (deletable : Deletable rustic all now left)
    (spared : left ∉ takeBatch deficit minBatch 0 [] (fifoCandidates rustic all now)) :
    deleted.time ≤ left.time := by
  obtain ⟨rest, whole⟩ := takeBatch_append deficit minBatch 0 [] (fifoCandidates rustic all now)
  rw [List.nil_append] at whole
  have later : left ∈ rest := by
    rw [← mem_fifoCandidates distinct, ← whole] at deletable
    exact (List.mem_append.mp deletable).resolve_left spared
  have sorted : (fifoCandidates rustic all now).Pairwise fun first second => first.time ≤ second.time :=
    sortByTime_sorted _
  rw [← whole] at sorted
  exact (List.pairwise_append.mp sorted).2.2 deleted taken left later

/-! ### Steps of a run -/

/-- Positions that hold neither snapshots to delete nor blobs to remove. -/
def idle : RetentionPc → Bool
  | .timeUsage _ _ | .timeDelete _ _ _ | .roundDelete _ _ _ | .prune (.execute _) _ _ => false
  | _ => true

/-- Everything a step of a run can do to the repository and to what the run holds. -/
inductive Effect (rustic : Rustic) (state : RetentionState) (answer : Answer) (next : RetentionState) : Prop where
  | moves (repo : next.repo = state.repo) (rests : idle next.pc = true)
  | listsTime (keep : KeepOptions) (repo : next.repo = state.repo)
      (pc : next.pc = .timeUsage answer.now (timeDoomed rustic keep state.repo.snapshots answer.now))
  | readsUsage (now : Int) (doomed : List Snapshot) (before : Nat) (at_pc : state.pc = .timeUsage now doomed)
      (repo : next.repo = state.repo) (pc : next.pc = .timeDelete now doomed before)
  | listsSpace (shortage : Shortage) (repo : next.repo = state.repo)
      (pc : next.pc = .roundDelete shortage answer.now (takeBatch shortage.deficit shortage.round.minBatch 0 []
        (fifoCandidates rustic state.repo.snapshots answer.now)))
  | deletesTime (now : Int) (doomed : List Snapshot) (before : Nat) (at_pc : state.pc = .timeDelete now doomed before)
      (repo : next.repo = deleteListed state.repo answer doomed) (rests : idle next.pc = true)
  | deletesSpace (shortage : Shortage) (now : Int) (batch : List Snapshot) (at_pc : state.pc = .roundDelete shortage now batch)
      (repo : next.repo = deleteListed state.repo answer batch) (rests : idle next.pc = true)
  | plans (instant : Bool) (resume : Resume) (at_pc : state.pc = .prune .plan instant resume)
      (repo : next.repo = state.repo) (pc : next.pc = .prune (.execute state.repo.unreferenced) instant resume)
  | prunes (doomed gone : List Nat) (instant : Bool) (resume : Resume)
      (at_pc : state.pc = .prune (.execute doomed) instant resume) (planned : gone ⊆ doomed)
      (repo : next.repo = state.repo.removeBlobs gone) (rests : idle next.pc = true)

theorem spaceStep_cases (run : RetentionRun) :
    run.spaceStep = .finished (.ok ()) ∨ ∃ round, run.spaceStep = .roundCheck round := by
  unfold RetentionRun.spaceStep
  split
  · split
    · exact .inr ⟨_, rfl⟩
    · exact .inl rfl
  · exact .inl rfl

theorem nextRound_cases (shortage : Shortage) (freed deleted : Nat) :
    nextRound shortage freed deleted = .finished (.ok ()) ∨
      ∃ round, nextRound shortage freed deleted = .roundCheck round := by
  unfold nextRound
  extract_lets emptyRounds minBatch
  split
  · exact .inl rfl
  · split
    · exact .inr ⟨_, rfl⟩
    · exact .inl rfl

@[simp] theorem idle_spaceStep (run : RetentionRun) : idle run.spaceStep = true := by
  rcases spaceStep_cases run with stops | ⟨round, goes⟩
  · rw [stops]
    rfl
  · rw [goes]
    rfl

@[simp] theorem idle_resume (resume : Resume) : idle resume.pc = true := by
  cases resume <;> rfl

@[simp] theorem idle_nextRound (shortage : Shortage) (freed deleted : Nat) :
    idle (nextRound shortage freed deleted) = true := by
  rcases nextRound_cases shortage freed deleted with stops | ⟨round, goes⟩
  · rw [stops]
    rfl
  · rw [goes]
    rfl

private theorem prune_effect {state : RetentionState} {answer : Answer} {pc : PrunePc} {instant : Bool} {resume : Resume}
    (at_pc : state.pc = .prune pc instant resume) :
    Effect rustic state answer ⟨(pruneStep state.repo answer instant resume pc).1, state.report,
      (pruneStep state.repo answer instant resume pc).2⟩ := by
  cases pc with
  | check =>
    simp only [pruneStep]
    split
    · exact .moves rfl (idle_resume resume)
    · exact .moves rfl rfl
  | «open» =>
    simp only [pruneStep]
    split <;> exact .moves rfl rfl
  | plan =>
    simp only [pruneStep]
    split
    · exact .moves rfl rfl
    · exact .plans instant resume at_pc rfl rfl
  | execute doomed =>
    have some_of : doomed.filter answer.partly.contains ⊆ doomed := List.filter_sublist.subset
    simp only [pruneStep]
    split
    · exact .prunes doomed _ instant resume at_pc some_of rfl rfl
    · split
      · exact .prunes doomed doomed instant resume at_pc (List.Subset.refl doomed) rfl (idle_resume resume)
      · exact .prunes doomed _ instant resume at_pc some_of rfl (idle_resume resume)

section Effects

variable {run : RetentionRun} {state next : RetentionState} {answer : Answer}

theorem begin_effect (at_pc : state.pc = .begin) (taken : retentionStep rustic run state answer = some next) :
    Effect rustic state answer next := by
  simp only [retentionStep, at_pc] at taken
  split at taken
  · cases taken
    exact .moves rfl (idle_spaceStep run)
  · split at taken <;> cases taken
    · exact .moves rfl rfl
    · exact .moves rfl (idle_spaceStep run)
    · exact .moves rfl rfl

theorem timeList_effect {keep : KeepOptions} (at_pc : state.pc = .timeList keep)
    (taken : retentionStep rustic run state answer = some next) :
    Effect rustic state answer next := by
  simp only [retentionStep, at_pc] at taken
  split at taken
  · cases taken
    exact .moves rfl rfl
  · split at taken
    · cases taken
      exact .moves rfl (idle_spaceStep run)
    · split at taken <;> cases taken
      · exact .moves rfl (idle_spaceStep run)
      · exact .listsTime keep rfl rfl

theorem roundList_effect {shortage : Shortage} (at_pc : state.pc = .roundList shortage)
    (taken : retentionStep rustic run state answer = some next) :
    Effect rustic state answer next := by
  simp only [retentionStep, at_pc] at taken
  split at taken
  · cases taken
    exact .moves rfl rfl
  · split at taken
    · cases taken
      exact .moves rfl rfl
    · split at taken <;> cases taken
      · exact .moves rfl rfl
      · exact .listsSpace shortage rfl rfl

theorem retentionStep_effect  (taken : retentionStep rustic run state answer = some next) : Effect rustic state answer next := by
  cases at_pc : state.pc with
  | begin => exact begin_effect at_pc taken
  | timeCheck keep =>
    simp only [retentionStep, at_pc] at taken
    split at taken <;> cases taken
    · exact .moves rfl (idle_spaceStep run)
    · exact .moves rfl rfl
  | timeOpen keep =>
    simp only [retentionStep, at_pc] at taken
    split at taken <;> cases taken <;> exact .moves rfl rfl
  | timeList keep => exact timeList_effect at_pc taken
  | timeUsage now doomed =>
    simp only [retentionStep, at_pc] at taken
    cases taken
    exact .readsUsage now doomed _ at_pc rfl rfl
  | timeDelete now doomed before =>
    simp only [retentionStep, at_pc] at taken
    split at taken <;> cases taken <;> exact .deletesTime now doomed before at_pc rfl rfl
  | timeFreed before =>
    simp only [retentionStep, at_pc] at taken
    cases taken
    exact .moves rfl (idle_spaceStep run)
  | prune pc instant resume =>
    simp only [retentionStep, at_pc] at taken
    cases taken
    exact prune_effect at_pc
  | roundCheck round =>
    simp only [retentionStep, at_pc] at taken
    split at taken <;> cases taken <;> exact .moves rfl rfl
  | roundUsage round =>
    simp only [retentionStep, at_pc] at taken
    split at taken
    · split at taken <;> cases taken <;> exact .moves rfl rfl
    · cases taken
      exact .moves rfl rfl
  | roundOpen shortage =>
    simp only [retentionStep, at_pc] at taken
    split at taken <;> cases taken <;> exact .moves rfl rfl
  | roundList shortage => exact roundList_effect at_pc taken
  | roundDelete shortage now batch =>
    simp only [retentionStep, at_pc] at taken
    split at taken <;> cases taken <;> exact .deletesSpace shortage now batch at_pc rfl rfl
  | roundFreed shortage deleted =>
    simp only [retentionStep, at_pc] at taken
    split at taken <;> cases taken
    · exact .moves rfl rfl
    · exact .moves rfl (idle_nextRound shortage _ deleted)
  | finished result =>
    simp only [retentionStep, at_pc] at taken
    cases taken

end Effects

/-! ### Whole runs -/

theorem id_injective (repo : Repository) {first second : Snapshot} (first_mem : first ∈ repo.snapshots)
    (second_mem : second ∈ repo.snapshots) (same : first.id = second.id) : first = second :=
  List.inj_on_of_nodup_map repo.distinct first_mem second_mem same

theorem snapshots_nodup (repo : Repository) : repo.snapshots.Nodup := repo.distinct.of_map

@[simp] theorem mem_deleteSnapshots {repo : Repository} {ids : List Nat} {snapshot : Snapshot} :
    snapshot ∈ (repo.deleteSnapshots ids).snapshots ↔ snapshot ∈ repo.snapshots ∧ snapshot.id ∉ ids := by
  simp [Repository.deleteSnapshots]

theorem mem_deleteListed {repo : Repository} {answer : Answer} {listed : List Snapshot} (present : listed ⊆ repo.snapshots)
    {snapshot : Snapshot} (member : snapshot ∈ repo.snapshots) :
    (snapshot ∉ listed → snapshot ∈ (deleteListed repo answer listed).snapshots) ∧
    (answer.fails = false → snapshot ∈ listed → snapshot ∉ (deleteListed repo answer listed).snapshots) := by
  have same_id : snapshot.id ∈ listed.map Snapshot.id ↔ snapshot ∈ listed := by
    constructor
    · intro inside
      obtain ⟨other, other_mem, same⟩ := List.mem_map.mp inside
      rwa [id_injective repo member (present other_mem) same.symm]
    · exact List.mem_map_of_mem
  constructor
  · intro spared
    have safe (ids : List Nat) (some_of : ids ⊆ listed.map Snapshot.id) :
        snapshot ∈ (repo.deleteSnapshots ids).snapshots :=
      mem_deleteSnapshots.mpr ⟨member, fun inside => spared (same_id.mp (some_of inside))⟩
    unfold deleteListed
    split
    · exact safe _ List.filter_sublist.subset
    · exact safe _ (List.Subset.refl _)
  · intro succeeds listed_mem remains
    rw [deleteListed, succeeds, if_neg Bool.false_ne_true] at remains
    exact (mem_deleteSnapshots.mp remains).2 (same_id.mpr listed_mem)

/-- The snapshots a run is about to delete were computed from the present ones. -/
def Listed (rustic : Rustic) (state : RetentionState) : Prop :=
  match state.pc with
  | .timeUsage now doomed | .timeDelete now doomed _ =>
    ∃ keep, doomed = timeDoomed rustic keep state.repo.snapshots now
  | .roundDelete shortage now batch =>
    batch = takeBatch shortage.deficit shortage.round.minBatch 0 [] (fifoCandidates rustic state.repo.snapshots now)
  | _ => True

private theorem Listed.of_idle {state : RetentionState} (rests : idle state.pc = true) : Listed rustic state := by
  unfold Listed
  split
  next at_pc => simp [at_pc, idle] at rests
  next at_pc => simp [at_pc, idle] at rests
  next at_pc => simp [at_pc, idle] at rests
  next => trivial

theorem Listed.step {run : RetentionRun} {state next : RetentionState} {answer : Answer} (listed : Listed rustic state)
    (taken : retentionStep rustic run state answer = some next) : Listed rustic next := by
  cases retentionStep_effect taken with
  | moves repo rests => exact .of_idle rests
  | listsTime keep repo pc =>
    simp only [Listed, pc, repo]
    exact ⟨keep, rfl⟩
  | readsUsage now doomed before at_pc repo pc =>
    simpa only [Listed, pc, repo, at_pc] using listed
  | listsSpace shortage repo pc => simp only [Listed, pc, repo]
  | deletesTime now doomed before at_pc repo rests => exact .of_idle rests
  | deletesSpace shortage now batch at_pc repo rests => exact .of_idle rests
  | plans instant resume at_pc repo pc => simp only [Listed, pc]
  | prunes doomed gone instant resume at_pc planned repo rests => exact .of_idle rests

theorem mem_timeDoomed {keep : KeepOptions} {snapshot : Snapshot} (member : snapshot ∈ timeDoomed rustic keep all now) :
    snapshot ∈ all ∧ rustic.mustKeep snapshot now = false := by
  simp only [timeDoomed, mem_sortByTime, List.mem_flatMap, List.mem_filter, Bool.and_eq_true, Bool.not_eq_true'] at member
  obtain ⟨group, group_member, inside, -, free⟩ := member
  exact ⟨(mem_group rustic).mpr ⟨group, group_member, inside⟩, free⟩

theorem mem_batch (distinct : all.Nodup) {deficit minBatch : Nat} {snapshot : Snapshot}
    (member : snapshot ∈ takeBatch deficit minBatch 0 [] (fifoCandidates rustic all now)) :
    Deletable rustic all now snapshot := by
  obtain ⟨rest, whole⟩ := takeBatch_append deficit minBatch 0 [] (fifoCandidates rustic all now)
  rw [List.nil_append] at whole
  rw [← mem_fifoCandidates distinct, ← whole]
  exact List.mem_append_left rest member

/-- The clock reading a deletion was decided with. -/
def deletesAt : RetentionPc → Option Int
  | .timeDelete now _ _ | .roundDelete _ now _ => some now
  | _ => none

/-- A step that removes a snapshot is a deletion, and the snapshot was not protected. -/
private theorem removed_unprotected {run : RetentionRun} {state next : RetentionState} {answer : Answer}
    (listed : Listed rustic state) (taken : retentionStep rustic run state answer = some next) {snapshot : Snapshot}
    (member : snapshot ∈ state.repo.snapshots) (removed : snapshot ∉ next.repo.snapshots) :
    ∃ now, deletesAt state.pc = some now ∧ rustic.mustKeep snapshot now = false := by
  cases retentionStep_effect taken with
  | deletesTime now doomed before at_pc repo rests =>
    simp only [Listed, at_pc] at listed
    obtain ⟨keep, rfl⟩ := listed
    rw [repo] at removed
    have inside := not_not.mp fun spared =>
      removed ((mem_deleteListed (fun _ inside => (mem_timeDoomed inside).1) member).1 spared)
    exact ⟨now, by rw [at_pc]; rfl, (mem_timeDoomed inside).2⟩
  | deletesSpace shortage now batch at_pc repo rests =>
    simp only [Listed, at_pc] at listed
    subst batch
    rw [repo] at removed
    have deletable {other : Snapshot} (inside : other ∈ takeBatch shortage.deficit shortage.round.minBatch 0 []
        (fifoCandidates rustic state.repo.snapshots now)) : Deletable rustic state.repo.snapshots now other :=
      mem_batch (snapshots_nodup state.repo) inside
    have inside := not_not.mp fun spared =>
      removed ((mem_deleteListed (fun _ inside => (deletable inside).1) member).1 spared)
    exact ⟨now, by rw [at_pc]; rfl, (deletable inside).2.1⟩
  | _ =>
    rename_i repo _
    rw [repo] at removed
    exact absurd member removed

/-- Positions inside `space_step`. -/
def inSpaceStep : RetentionPc → Bool
  | .roundCheck _ | .roundUsage _ | .roundOpen _ | .roundList _ | .roundDelete _ _ _ | .roundFreed _ _ => true
  | .prune _ _ (.space _ _) | .finished _ => true
  | _ => false

private theorem inSpaceStep_step {run : RetentionRun} {state next : RetentionState} {answer : Answer}
    (inside : inSpaceStep state.pc = true) (taken : retentionStep rustic run state answer = some next) :
    inSpaceStep next.pc = true := by
  unfold retentionStep at taken
  cases at_pc : state.pc with
  | prune pc instant resume =>
    cases resume with
    | time before => simp [at_pc, inSpaceStep] at inside
    | space shortage deleted =>
      simp only [at_pc] at taken
      cases taken
      cases pc <;> simp only [pruneStep] <;> repeat' split
      all_goals rfl
  | roundCheck round =>
    simp only [at_pc] at taken
    split at taken <;> cases taken <;> rfl
  | roundUsage round =>
    simp only [at_pc] at taken
    split at taken
    · split at taken <;> cases taken <;> rfl
    · cases taken
      rfl
  | roundOpen shortage =>
    simp only [at_pc] at taken
    split at taken <;> cases taken <;> rfl
  | roundList shortage =>
    simp only [at_pc] at taken
    split at taken
    · cases taken
      rfl
    · split at taken
      · cases taken
        rfl
      · split at taken <;> cases taken <;> rfl
  | roundDelete shortage now batch =>
    simp only [at_pc] at taken
    split at taken <;> cases taken <;> rfl
  | roundFreed shortage deleted =>
    simp only [at_pc] at taken
    split at taken <;> cases taken
    · rfl
    next after _ =>
      dsimp only
      rcases nextRound_cases shortage (saturatingSub shortage.used after) deleted with stops | ⟨round, goes⟩
      · rw [stops]
        rfl
      · rw [goes]
        rfl
  | finished result =>
    simp only [at_pc] at taken
    cases taken
  | _ => simp [at_pc, inSpaceStep] at inside

/-- Every group that had a snapshot still has one with the group's greatest time. -/
def KeepsNewest (before after : Repository) : Prop :=
  ∀ snapshot ∈ before.snapshots, ∃ newest ∈ after.snapshots, newest.group = snapshot.group ∧
    ∀ other ∈ before.snapshots, other.group = snapshot.group → other.time ≤ newest.time

theorem KeepsNewest.refl (rustic : Rustic) (repo : Repository) : KeepsNewest repo repo := by
  intro snapshot member
  obtain ⟨newest, -, present, same, greatest⟩ := keptNewest_greatest rustic member
  exact ⟨newest, present, same, greatest⟩

theorem KeepsNewest.trans {first second third : Repository} (left : KeepsNewest first second)
    (right : KeepsNewest second third) : KeepsNewest first third := by
  intro snapshot member
  obtain ⟨middle, middle_mem, middle_same, middle_greatest⟩ := left snapshot member
  obtain ⟨newest, newest_mem, newest_same, newest_greatest⟩ := right middle middle_mem
  refine ⟨newest, newest_mem, newest_same.trans middle_same, ?_⟩
  intro other other_mem same
  exact (middle_greatest other other_mem same).trans (newest_greatest middle middle_mem rfl)

/-- One round: the batch contains no snapshot that its group sets aside. -/
private theorem space_keeps_newest {run : RetentionRun} {state next : RetentionState} {answer : Answer}
    (listed : Listed rustic state) (inside : inSpaceStep state.pc = true)
    (taken : retentionStep rustic run state answer = some next) : KeepsNewest state.repo next.repo := by
  cases retentionStep_effect taken with
  | deletesTime now doomed before at_pc repo rests => simp [at_pc, inSpaceStep] at inside
  | deletesSpace shortage now batch at_pc repo rests =>
    simp only [Listed, at_pc] at listed
    subst batch
    intro snapshot member
    obtain ⟨newest, kept, present, same, greatest⟩ := keptNewest_greatest rustic member
    refine ⟨newest, ?_, same, greatest⟩
    rw [repo]
    refine (mem_deleteListed ?_ present).1 ?_
    · exact fun _ taken => (mem_batch (snapshots_nodup state.repo) taken).1
    · exact fun taken => (mem_batch (snapshots_nodup state.repo) taken).2.2 kept
  | _ =>
    rename_i repo _
    rw [repo]
    exact .refl rustic state.repo

/-- A run deletes no protected snapshot; its space rule leaves every group a snapshot
with the group's greatest time and deletes an oldest-first prefix in every round. -/
theorem retention_spares_protected (rustic : Rustic) (retention : RetentionRun) (repo : Repository) (answers : List Answer) :
    (∀ state answer next, Occurs (retentionStep rustic retention) (retentionStart repo) answers state answer next →
      ∀ snapshot ∈ state.repo.snapshots, snapshot ∉ next.repo.snapshots →
        isLocked snapshot = false ∧ ∃ now, deletesAt state.pc = some now ∧ rustic.mustKeep snapshot now = false) ∧
    (∀ before after middle later, answers = before ++ after →
      run (retentionStep rustic retention) (retentionStart repo) before = some middle → inSpaceStep middle.pc = true →
      run (retentionStep rustic retention) middle after = some later → KeepsNewest middle.repo later.repo) ∧
    (∀ state answer next shortage now batch,
      Occurs (retentionStep rustic retention) (retentionStart repo) answers state answer next →
      state.pc = .roundDelete shortage now batch →
      (∀ snapshot ∈ state.repo.snapshots, snapshot ∉ next.repo.snapshots → snapshot ∈ batch) ∧
      (answer.fails = false → ∀ snapshot ∈ batch, snapshot ∉ next.repo.snapshots) ∧
      ∀ deleted ∈ batch, Deletable rustic state.repo.snapshots now deleted ∧
        ∀ left, Deletable rustic state.repo.snapshots now left → left ∉ batch → ¬left.time < deleted.time) := by
  have listed {answers : List Answer} {state : RetentionState}
      (executed : run (retentionStep rustic retention) (retentionStart repo) answers = some state) : Listed rustic state :=
    run_invariant _ (fun _ _ _ holds taken => Listed.step holds taken) (.of_idle rfl) executed
  refine ⟨?_, ?_, ?_⟩
  · rintro state answer next ⟨before, after, -, executed, taken⟩ snapshot member removed
    obtain ⟨now, decided, free⟩ := removed_unprotected (listed executed) taken member removed
    refine ⟨?_, now, decided, free⟩
    by_contra locked
    rw [rustic.keeps_locked snapshot now (Bool.eq_true_of_not_eq_false locked)] at free
    cases free
  · intro before after middle later _ executed inside continued
    have kept := run_invariant
      (fun state => Listed rustic state ∧ inSpaceStep state.pc = true ∧ KeepsNewest middle.repo state.repo)
      (fun state answer next holds taken => ⟨holds.1.step taken, inSpaceStep_step holds.2.1 taken,
        holds.2.2.trans (space_keeps_newest holds.1 holds.2.1 taken)⟩)
      ⟨listed executed, inside, .refl rustic middle.repo⟩ continued
    exact kept.2.2
  · rintro state answer next shortage now batch ⟨before, after, -, executed, taken⟩ at_pc
    have computed := listed executed
    simp only [Listed, at_pc] at computed
    subst batch
    have distinct := snapshots_nodup state.repo
    have present : takeBatch shortage.deficit shortage.round.minBatch 0 [] (fifoCandidates rustic state.repo.snapshots now) ⊆
        state.repo.snapshots := fun _ taken => (mem_batch distinct taken).1
    have deletion : next.repo = deleteListed state.repo answer (takeBatch shortage.deficit shortage.round.minBatch 0 []
        (fifoCandidates rustic state.repo.snapshots now)) := by
      simp only [retentionStep, at_pc] at taken
      split at taken <;> cases taken <;> rfl
    refine ⟨?_, ?_, ?_⟩
    · intro snapshot member removed
      rw [deletion] at removed
      exact not_not.mp fun spared => removed ((mem_deleteListed present member).1 spared)
    · intro succeeds snapshot inside
      rw [deletion]
      exact (mem_deleteListed present (present inside)).2 succeeds inside
    · intro deleted inside
      refine ⟨mem_batch distinct inside, ?_⟩
      intro left deletable spared
      exact not_lt.mpr (batch_oldest_first distinct _ _ inside deletable spared)

/-! ### A grouping -/

def withGroup (all : List Snapshot) (key : String × String × List String) : List Snapshot :=
  all.filter fun snapshot => snapshot.group = key

/-- One group for each value of the criterion, in the order of the snapshots. -/
def groupItems (all : List Snapshot) : List (List Snapshot) :=
  (all.map Snapshot.group).dedup.map (withGroup all)

private theorem withGroup_covers (all : List Snapshot) {keys : List (String × String × List String)} (distinct : keys.Nodup) :
    (keys.map (withGroup all)).flatten.Perm (all.filter fun snapshot => snapshot.group ∈ keys) := by
  induction keys with
  | nil => simp
  | cons key rest ih =>
    obtain ⟨fresh, later⟩ := List.nodup_cons.mp distinct
    have split := List.filter_append_perm (fun snapshot : Snapshot => decide (snapshot.group = key))
      (all.filter fun snapshot => snapshot.group ∈ key :: rest)
    rw [List.filter_filter, List.filter_filter] at split
    have here : (all.filter fun snapshot => decide (snapshot.group = key) && decide (snapshot.group ∈ key :: rest)) =
        withGroup all key := by
      apply List.filter_congr
      intro snapshot _
      by_cases same : snapshot.group = key <;> simp [same]
    have there : (all.filter fun snapshot => !decide (snapshot.group = key) && decide (snapshot.group ∈ key :: rest)) =
        all.filter fun snapshot => snapshot.group ∈ rest := by
      apply List.filter_congr
      intro snapshot _
      by_cases same : snapshot.group = key <;> simp [same, fresh]
    rw [here, there] at split
    exact ((ih later).append_left _).trans split

theorem groupItems_partition (all : List Snapshot) : IsPartition all (groupItems all) where
  covers := by
    have covers := withGroup_covers all (List.nodup_dedup (all.map Snapshot.group))
    have everything : (all.filter fun snapshot => snapshot.group ∈ (all.map Snapshot.group).dedup) = all := by
      apply List.filter_eq_self.mpr
      intro snapshot member
      simpa using ⟨snapshot, member, rfl⟩
    rwa [everything] at covers
  nonempty := by
    intro group member
    obtain ⟨key, key_mem, rfl⟩ := List.mem_map.mp member
    obtain ⟨snapshot, present, same⟩ := List.mem_map.mp (List.mem_dedup.mp key_mem)
    exact List.ne_nil_of_mem (List.mem_filter.mpr ⟨present, by simpa using same⟩)
  uniform := by
    intro group member first first_mem second second_mem
    obtain ⟨key, -, rfl⟩ := List.mem_map.mp member
    simp only [withGroup, List.mem_filter, decide_eq_true_eq] at first_mem second_mem
    rw [first_mem.2, second_mem.2]
  separate := by
    refine List.Pairwise.map _ ?_ (List.nodup_dedup (all.map Snapshot.group))
    intro left right different first first_mem second second_mem same
    simp only [withGroup, List.mem_filter, decide_eq_true_eq] at first_mem second_mem
    exact different (first_mem.2.symm.trans (same.trans second_mem.2))

/-- Rustic with the delete options as documented and `keep_last` as the only time rule. -/
def plainRustic : Rustic where
  mustKeep snapshot now :=
    match snapshot.delete with
    | .never => true
    | .after time => decide (now ≤ time)
    | .notSet => false
  keeps_locked := by
    intro snapshot now locked
    simp only [isLocked, beq_iff_eq] at locked
    rw [locked]
  fromItems := groupItems
  partitions := groupItems_partition
  keeps keep _ group snapshot :=
    match keep.last with
    | some count => decide (((group.filter fun other => snapshot.time < other.time).length : Int) < count)
    | none => false

def dailySnapshot (id : Nat) (delete : DeleteOption) : Snapshot where
  id := id
  time := id
  hostname := "host"
  label := "data"
  paths := ["/"]
  delete := delete
  dataAddedPacked := some 10
  blobs := [id]

/-- Three snapshots of one series, the oldest one locked. -/
def dailyRepo : Repository where
  snapshots := [dailySnapshot 1 .never, dailySnapshot 2 .notSet, dailySnapshot 3 .notSet]
  blobs := [1, 2, 3]
  distinct := by decide

def reserveTen : RetentionRun := ⟨{ reserveBytes := 10 }, .spaceOnly, some 30, false⟩

/-- The repository answers everything; the quota is used up and stays so. -/
def fullQuota : Answer := ⟨false, false, some 30, 5, []⟩

/-- The only deletable snapshot goes in the first round. -/
theorem daily_run_spares_protected : ∃ state next,
    Occurs (retentionStep plainRustic reserveTen) (retentionStart dailyRepo) (List.replicate 6 fullQuota) state fullQuota next ∧
    dailySnapshot 2 .notSet ∉ next.repo.snapshots ∧ dailySnapshot 2 .notSet ∈ state.repo.snapshots ∧
    KeepsNewest state.repo next.repo ∧ plainRustic.mustKeep (dailySnapshot 2 .notSet) 5 = false := by
  have occurs : Occurs (retentionStep plainRustic reserveTen) (retentionStart dailyRepo) (List.replicate 6 fullQuota)
      _ fullQuota _ := ⟨List.replicate 5 fullQuota, [], rfl, rfl, rfl⟩
  have spares := retention_spares_protected plainRustic reserveTen dailyRepo (List.replicate 6 fullQuota)
  have kept := spares.2.1 (List.replicate 5 fullQuota) [fullQuota] _ _ rfl rfl rfl rfl
  obtain ⟨-, now, decided, free⟩ := spares.1 _ _ _ occurs (dailySnapshot 2 .notSet) (by decide) (by decide)
  cases decided
  exact ⟨_, _, occurs, by decide, by decide, kept, free⟩

end Vaulton.Proofs.Retention
