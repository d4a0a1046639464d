import Vaulton.Proofs.Retention

/-! How many times the space rule deletes and prunes. While a round falls short of its
deficit the smallest batch doubles, so the candidates run out after a logarithm of their
number; the bound needs that a round which does not fall short is the last one. Above the
quota that can fail: the missing space is cut off at the target there. -/

namespace Vaulton.Proofs.RetentionRounds
open Vaulton.Lib Vaulton.Quota Vaulton.Retention Vaulton.Proofs.Retention

variable {rustic : Rustic} {retention : RetentionRun} {maxBytes : Nat}

/-! ### Batches -/

/-- A batch is as large as it has to be, unless it takes everything. -/
theorem takeBatch_length (deficit minBatch estimate : Nat) (batch candidates : List Snapshot) :
    minBatch ≤ (takeBatch deficit minBatch estimate batch candidates).length ∨
      takeBatch deficit minBatch estimate batch candidates = batch ++ candidates := by
  induction candidates generalizing estimate batch with
  | nil => exact .inr (List.append_nil batch).symm
  | cons snapshot rest ih =>
    rw [takeBatch]
    split
    next enough => exact .inl enough.2
    next =>
      rcases ih (saturatingAdd estimate (addedBytes snapshot)) (batch ++ [snapshot]) with large | all
      · exact .inl large
      · right
        rw [all, List.append_assoc, List.singleton_append]

/-! ### A run without others -/

/-- Usage and candidates as the run leaves them. -/
structure Watch where
  usage : Nat
  candidates : Multiset Snapshot

def Watch.after (watch : Watch) (answer : Answer) : RetentionPc → Watch
  | .roundDelete _ _ batch => { watch with candidates := watch.candidates - batch }
  | .roundFreed _ _ => { watch with usage := answer.usage.getD watch.usage }
  | _ => watch

def watchedStep (rustic : Rustic) (retention : RetentionRun) (watched : RetentionState × Watch) (answer : Answer) :
    Option (RetentionState × Watch) :=
  (retentionStep rustic retention watched.1 answer).map fun next => (next, watched.2.after answer watched.1.pc)

/-- Usage and candidates change through the run alone, and a prune adds nothing. -/
def Undisturbed (rustic : Rustic) (watched : RetentionState × Watch) (answer : Answer) : Prop :=
  match watched.1.pc with
  | .roundUsage _ => ∀ used ∈ answer.usage, used = watched.2.usage
  | .roundList _ => answer.fails = false →
      (fifoCandidates rustic watched.1.repo.snapshots answer.now : Multiset Snapshot) = watched.2.candidates
  | .roundFreed _ _ => ∀ after ∈ answer.usage, after ≤ watched.2.usage
  | _ => True

/-- A round that started above the quota and freed what it missed has reached the target. -/
def SettlesAbove (retention : RetentionRun) (watched : RetentionState × Watch) (answer : Answer) : Prop :=
  match watched.1.pc with
  | .roundFreed shortage _ => ∀ maxBytes ∈ retention.maxBytes, ∀ after ∈ answer.usage, maxBytes < shortage.used →
      shortage.deficit ≤ shortage.used - after → targetFree maxBytes retention.policy ≤ maxBytes - after
  | _ => True

def deletesSnapshots : RetentionPc → Bool
  | .roundDelete _ _ _ => true
  | _ => false

/-- The rounds of a run that delete snapshots. -/
def deletions (rustic : Rustic) (retention : RetentionRun) (start : RetentionState × Watch) (answers : List Answer) : Nat :=
  (collect (watchedStep rustic retention) (fun watched _ => if deletesSnapshots watched.1.pc then some () else none) start
    answers).length

/-! ### The bound -/

def Bounded (size count : Nat) : Prop := count ≤ Nat.log 2 size + 1

theorem bounded_of_pow {size round : Nat} (power : 2 ^ round ≤ size + 1) : Bounded size round := by
  unfold Bounded
  cases round with
  | zero => omega
  | succ round =>
    rw [Nat.pow_succ] at power
    have half : 2 ^ round ≤ size := by
      have positive := Nat.two_pow_pos round
      omega
    have log := Nat.le_log_of_pow_le (by omega) half
    omega

theorem bounded_of_pow_le {size round : Nat} (power : 2 ^ round ≤ size) : Bounded size (round + 1) := by
  have log := Nat.le_log_of_pow_le (by omega) power
  unfold Bounded
  omega

/-- Before a round: with `round` rounds behind it, at least `2 ^ round - 1` candidates are gone. -/
structure Doubling (size : Nat) (watch : Watch) (count : Nat) (round : Round) : Prop where
  rounds : count = round.round
  early : round.round < maxSpaceRounds
  batch : 2 ^ round.round ≤ round.minBatch
  removed : 2 ^ round.round + watch.candidates.card ≤ size + 1

/-- What a round that found too little space knows. -/
structure Short (retention : RetentionRun) (maxBytes : Nat) (watch : Watch) (shortage : Shortage) : Prop where
  used : shortage.used = watch.usage
  missing : shortage.deficit = targetFree maxBytes retention.policy - (maxBytes - shortage.used)

/-- After the deletion of a round. -/
structure Deleted (size : Nat) (watch : Watch) (count : Nat) (round : Round) (deleted : Nat) : Prop where
  rounds : count = round.round + 1
  early : round.round < maxSpaceRounds
  batch : 2 ^ round.round ≤ round.minBatch
  large : 2 ^ round.round ≤ deleted ∨ watch.candidates = 0
  removed : 2 ^ round.round + deleted + watch.candidates.card ≤ size + 1
  some_deleted : 1 ≤ deleted

/-- No later round deletes anything. -/
def Last (retention : RetentionRun) (maxBytes : Nat) (watch : Watch) : Prop :=
  targetFree maxBytes retention.policy ≤ maxBytes - watch.usage ∨ watch.candidates = 0

/-- The invariant of a run of `space_step`. -/
def Inv (retention : RetentionRun) (maxBytes size count : Nat) (watch : Watch) : RetentionPc → Prop
  | .roundCheck round | .roundUsage round =>
    Doubling size watch count round ∨ Bounded size count ∧ Last retention maxBytes watch
  | .roundOpen shortage | .roundList shortage =>
    Doubling size watch count shortage.round ∧ Short retention maxBytes watch shortage ∨
      Bounded size count ∧ watch.candidates = 0
  | .roundDelete shortage _ batch =>
    Doubling size watch count shortage.round ∧ Short retention maxBytes watch shortage ∧ 1 ≤ batch.length ∧
      (batch : Multiset Snapshot) ≤ watch.candidates ∧
      (shortage.round.minBatch ≤ batch.length ∨ (batch : Multiset Snapshot) = watch.candidates)
  | .prune _ _ (.space shortage deleted) | .roundFreed shortage deleted =>
    Deleted size watch count shortage.round deleted ∧ Short retention maxBytes watch shortage
  | .finished _ => Bounded size count
  | _ => False

variable {size count deleted : Nat} {watch : Watch} {round : Round} {shortage : Shortage}

theorem Doubling.bounded (doubling : Doubling size watch count round) : Bounded size count := by
  rw [doubling.rounds]
  apply bounded_of_pow
  have removed := doubling.removed
  omega

theorem Deleted.bounded (done : Deleted size watch count round deleted) : Bounded size count := by
  rw [done.rounds]
  apply bounded_of_pow_le
  have removed := done.removed
  have some_deleted := done.some_deleted
  omega

theorem Inv.bounded {pc : RetentionPc} (inv : Inv retention maxBytes size count watch pc) : Bounded size count := by
  cases pc with
  | roundCheck round => exact inv.elim Doubling.bounded And.left
  | roundUsage round => exact inv.elim Doubling.bounded And.left
  | roundOpen shortage => exact inv.elim (fun both => both.1.bounded) And.left
  | roundList shortage => exact inv.elim (fun both => both.1.bounded) And.left
  | roundDelete shortage now batch => exact inv.1.bounded
  | roundFreed shortage deleted => exact inv.1.bounded
  | finished result => exact inv
  | prune pc instant resume =>
    cases resume with
    | space shortage deleted => exact inv.1.bounded
    | time before => exact inv.elim
  | _ => exact inv.elim

/-! ### One round -/

theorem listed_batch {candidates : List Snapshot} (some_left : candidates ≠ []) (same : (candidates : Multiset Snapshot) = watch.candidates)
    (doubling : Doubling size watch count round) (deficit : Nat) :
    1 ≤ (takeBatch deficit round.minBatch 0 [] candidates).length ∧
      (takeBatch deficit round.minBatch 0 [] candidates : Multiset Snapshot) ≤ watch.candidates ∧
      (round.minBatch ≤ (takeBatch deficit round.minBatch 0 [] candidates).length ∨
        (takeBatch deficit round.minBatch 0 [] candidates : Multiset Snapshot) = watch.candidates) := by
  obtain ⟨left, whole⟩ := takeBatch_append deficit round.minBatch 0 [] candidates
  rw [List.nil_append] at whole
  have inside : (takeBatch deficit round.minBatch 0 [] candidates : Multiset Snapshot) ≤ watch.candidates := by
    rw [← same, Multiset.coe_le]
    conv_rhs => rw [← whole]
    exact (List.sublist_append_left _ left).subperm
  rcases takeBatch_length deficit round.minBatch 0 [] candidates with large | all
  · have power := Nat.one_le_two_pow (n := round.round)
    have batch := doubling.batch
    exact ⟨by omega, inside, .inl large⟩
  · rw [List.nil_append] at all
    refine ⟨?_, inside, .inr ?_⟩
    · rw [all]
      exact List.length_pos_of_ne_nil some_left
    · rw [all, same]

theorem deleted_batch {batch : List Snapshot} (doubling : Doubling size watch count round) (some_deleted : 1 ≤ batch.length)
    (inside : (batch : Multiset Snapshot) ≤ watch.candidates)
    (large : round.minBatch ≤ batch.length ∨ (batch : Multiset Snapshot) = watch.candidates) :
    Deleted size { watch with candidates := watch.candidates - batch } (count + 1) round batch.length := by
  have card : (watch.candidates - (batch : Multiset Snapshot)).card = watch.candidates.card - batch.length := by
    rw [Multiset.card_sub inside, Multiset.coe_card]
  have fits : batch.length ≤ watch.candidates.card := by
    rw [← Multiset.coe_card]
    exact Multiset.card_le_card inside
  have removed := doubling.removed
  refine ⟨by rw [doubling.rounds], doubling.early, doubling.batch, ?_, ?_, some_deleted⟩
  · rcases large with enough | all
    · exact .inl (Nat.le_trans doubling.batch enough)
    · right
      rw [all]
      exact tsub_self _
  · dsimp only
    rw [card]
    omega

theorem doubled_batch (early : round.round + 1 < maxSpaceRounds) (batch : 2 ^ round.round ≤ round.minBatch) :
    2 ^ (round.round + 1) ≤ max (saturatingAdd round.minBatch round.minBatch) deleted := by
  have small : 2 ^ (round.round + 1) ≤ 2 ^ 63 := by
    apply Nat.pow_le_pow_right (by omega)
    unfold maxSpaceRounds at early
    omega
  rw [Nat.pow_succ] at small ⊢
  unfold saturatingAdd u64Max
  omega

/-- A round that falls short doubles, one that does not is the last. -/
theorem nextRound_inv {after : Nat} (done : Deleted size watch count shortage.round deleted)
    (short : Short retention maxBytes watch shortage) (lower : after ≤ watch.usage)
    (settles : maxBytes < shortage.used → shortage.deficit ≤ shortage.used - after →
      targetFree maxBytes retention.policy ≤ maxBytes - after) :
    Inv retention maxBytes size count { watch with usage := after }
      (nextRound shortage (saturatingSub shortage.used after) deleted) := by
  unfold nextRound saturatingSub
  extract_lets emptyRounds minBatch
  split
  · exact done.bounded
  · split
    next early =>
      by_cases shortfall : shortage.used - after < shortage.deficit
      · rcases done.large with large | exhausted
        · left
          have removed := done.removed
          refine ⟨done.rounds, early, ?_, ?_⟩
          · change 2 ^ (shortage.round.round + 1) ≤ minBatch
            rw [show minBatch = max (saturatingAdd shortage.round.minBatch shortage.round.minBatch) deleted from if_pos shortfall]
            exact doubled_batch early done.batch
          · dsimp only
            rw [Nat.pow_succ]
            omega
        · exact .inr ⟨done.bounded, .inr exhausted⟩
      · right
        refine ⟨done.bounded, .inl ?_⟩
        dsimp only
        by_cases above : maxBytes < shortage.used
        · exact settles above (by omega)
        · have missing := short.missing
          have started := short.used
          omega
    next => exact done.bounded

/-! ### Runs -/

theorem spaceStep_inv (quota : retention.maxBytes = some maxBytes) (watch : Watch) :
    Inv retention maxBytes watch.candidates.card 0 watch retention.spaceStep := by
  unfold RetentionRun.spaceStep
  rw [quota]
  dsimp only
  split
  · left
    refine ⟨rfl, by decide, Nat.le_refl _, ?_⟩
    dsimp only
    omega
  · exact Nat.zero_le _

theorem pruneStep_inv {repo : Repository} {answer : Answer} {pc : PrunePc} {instant : Bool}
    (inv : Deleted size watch count shortage.round deleted ∧ Short retention maxBytes watch shortage) :
    Inv retention maxBytes size count watch (pruneStep repo answer instant (.space shortage deleted) pc).2 := by
  cases pc with
  | check =>
    simp only [pruneStep]
    split <;> exact inv
  | «open» =>
    simp only [pruneStep]
    split
    · exact inv.1.bounded
    · exact inv
  | plan =>
    simp only [pruneStep]
    split
    · exact inv.1.bounded
    · exact inv
  | execute doomed =>
    simp only [pruneStep]
    split
    · exact inv.1.bounded
    · split <;> exact inv

section Rounds

variable {state next : RetentionState} {answer : Answer}

theorem roundUsage_inv (quota : retention.maxBytes = some maxBytes) {round : Round} (at_pc : state.pc = .roundUsage round)
    (inv : Inv retention maxBytes size count watch (.roundUsage round)) (quiet : Undisturbed rustic (state, watch) answer)
    (taken : retentionStep rustic retention state answer = some next) : Inv retention maxBytes size count watch next.pc := by
  simp only [Undisturbed, at_pc] at quiet
  simp only [retentionStep, at_pc, quota] at taken
  split at taken
  next used maxBytes' answered known =>
    cases known
    cases quiet used answered
    split at taken
    next enough =>
      cases taken
      exact inv.elim Doubling.bounded And.left
    next missing =>
      cases taken
      unfold saturatingSub at missing
      rcases inv with doubling | ⟨bounded, reached | exhausted⟩
      · exact .inl ⟨doubling, rfl, rfl⟩
      · exact absurd reached (by omega)
      · exact .inr ⟨bounded, exhausted⟩
  next =>
    cases taken
    exact inv.elim Doubling.bounded And.left

theorem roundList_inv {shortage : Shortage} (at_pc : state.pc = .roundList shortage)
    (inv : Inv retention maxBytes size count watch (.roundList shortage)) (quiet : Undisturbed rustic (state, watch) answer)
    (taken : retentionStep rustic retention state answer = some next) : Inv retention maxBytes size count watch next.pc := by
  simp only [Undisturbed, at_pc] at quiet
  simp only [retentionStep, at_pc] at taken
  have bounded : Bounded size count := inv.elim (fun both => both.1.bounded) And.left
  split at taken
  · cases taken
    exact bounded
  next succeeds =>
    have same := quiet (Bool.eq_false_iff.mpr succeeds)
    split at taken
    · cases taken
      exact bounded
    next some_left =>
      split at taken
      · cases taken
        exact bounded
      · cases taken
        rcases inv with ⟨doubling, short⟩ | ⟨_, exhausted⟩
        · exact ⟨doubling, short, listed_batch some_left same doubling _⟩
        · rw [exhausted, Multiset.coe_eq_zero] at same
          exact absurd same some_left

theorem roundFreed_inv (quota : retention.maxBytes = some maxBytes) {shortage : Shortage} {deleted : Nat}
    (at_pc : state.pc = .roundFreed shortage deleted) (inv : Inv retention maxBytes size count watch (.roundFreed shortage deleted))
    (quiet : Undisturbed rustic (state, watch) answer) (settles : SettlesAbove retention (state, watch) answer)
    (taken : retentionStep rustic retention state answer = some next) :
    Inv retention maxBytes size count (watch.after answer (.roundFreed shortage deleted)) next.pc := by
  simp only [Undisturbed, at_pc] at quiet
  simp only [SettlesAbove, at_pc] at settles
  simp only [retentionStep, at_pc] at taken
  obtain ⟨done, short⟩ := inv
  split at taken
  next =>
    cases taken
    exact done.bounded
  next after answered =>
    cases taken
    have settled := nextRound_inv done short (quiet after answered) (settles maxBytes quota after answered)
    rw [show watch.after answer (.roundFreed shortage deleted) = { watch with usage := after } by
      rw [Watch.after, answered, Option.getD_some]]
    exact settled

theorem inv_step (quota : retention.maxBytes = some maxBytes) (inv : Inv retention maxBytes size count watch state.pc)
    (quiet : Undisturbed rustic (state, watch) answer) (settles : SettlesAbove retention (state, watch) answer)
    (taken : retentionStep rustic retention state answer = some next) :
    Inv retention maxBytes size (count + if deletesSnapshots state.pc then 1 else 0) (watch.after answer state.pc) next.pc := by
  cases at_pc : state.pc with
  | roundCheck round =>
    rw [at_pc] at inv
    simp only [retentionStep, at_pc] at taken
    split at taken
    · cases taken
      exact inv.elim Doubling.bounded And.left
    · cases taken
      exact inv
  | roundUsage round =>
    rw [at_pc] at inv
    exact roundUsage_inv quota at_pc inv quiet taken
  | roundOpen shortage =>
    rw [at_pc] at inv
    simp only [retentionStep, at_pc] at taken
    split at taken
    · cases taken
      exact inv.elim (fun both => both.1.bounded) And.left
    · cases taken
      exact inv
  | roundList shortage =>
    rw [at_pc] at inv
    exact roundList_inv at_pc inv quiet taken
  | roundDelete shortage now batch =>
    rw [at_pc] at inv
    simp only [retentionStep, at_pc] at taken
    obtain ⟨doubling, short, some_deleted, inside, large⟩ := inv
    have done := deleted_batch doubling some_deleted inside large
    split at taken
    · cases taken
      exact done.bounded
    · cases taken
      exact ⟨done, short.used, short.missing⟩
  | roundFreed shortage deleted =>
    rw [at_pc] at inv
    exact roundFreed_inv quota at_pc inv quiet settles taken
  | prune pc instant resume =>
    rw [at_pc] at inv
    cases resume with
    | space shortage deleted =>
      simp only [retentionStep, at_pc] at taken
      cases taken
      exact pruneStep_inv inv
    | time before => exact inv.elim
  | finished result =>
    simp only [retentionStep, at_pc] at taken
    cases taken
  | begin | timeCheck keep | timeOpen keep | timeList keep | timeUsage now doomed | timeDelete now doomed before
  | timeFreed before =>
    rw [at_pc] at inv
    exact inv.elim

end Rounds

theorem inv_run (quota : retention.maxBytes = some maxBytes) {state : RetentionState} {answers : List Answer}
    {final : RetentionState × Watch} (at_start : state.pc = retention.spaceStep)
    (executed : run (watchedStep rustic retention) (state, watch) answers = some final)
    (guarded : Guarded (watchedStep rustic retention)
      (fun watched answer => Undisturbed rustic watched answer ∧ SettlesAbove retention watched answer) (state, watch) answers) :
    Inv retention maxBytes watch.candidates.card (deletions rustic retention (state, watch) answers) final.2 final.1.pc := by
  refine guarded_history
    (fun answers watched => Inv retention maxBytes watch.candidates.card
      (deletions rustic retention (state, watch) answers) watched.2 watched.1.pc) ?_ ?_ guarded executed
  · rw [at_start]
    exact spaceStep_inv quota watch
  · intro before watched answer next prior inv allowed taken
    obtain ⟨moved, stepped, same⟩ := Option.map_eq_some_iff.mp taken
    cases same
    have counted : deletions rustic retention (state, watch) (before ++ [answer]) =
        deletions rustic retention (state, watch) before + if deletesSnapshots watched.1.pc then 1 else 0 := by
      unfold deletions
      rw [collect_concat prior taken, List.length_append]
      split <;> rfl
    rw [counted]
    exact inv_step quota inv allowed.1 allowed.2 stepped

/-- Deleting rounds are logarithmic in the candidates where no round above the quota frees
what it missed and still needs another one. -/
theorem deletions_logarithmic (rustic : Rustic) (retention : RetentionRun) (state : RetentionState) (watch : Watch)
    (answers : List Answer) (final : RetentionState × Watch) (at_start : state.pc = retention.spaceStep)
    (executed : run (watchedStep rustic retention) (state, watch) answers = some final)
    (undisturbed : Guarded (watchedStep rustic retention) (Undisturbed rustic) (state, watch) answers)
    (settles : Guarded (watchedStep rustic retention) (SettlesAbove retention) (state, watch) answers) :
    deletions rustic retention (state, watch) answers ≤ Nat.log 2 watch.candidates.card + 1 := by
  cases quota : retention.maxBytes with
  | some maxBytes => exact (inv_run quota at_start executed (guarded_and undisturbed settles)).bounded
  | none =>
    cases answers with
    | nil => exact Nat.zero_le _
    | cons answer rest =>
      have ended : state.pc = .finished (.ok ()) := by
        rw [at_start, RetentionRun.spaceStep, quota]
      obtain ⟨next, taken, _⟩ := run_cons.mp executed
      obtain ⟨moved, stepped, _⟩ := Option.map_eq_some_iff.mp taken
      rw [retentionStep, ended] at stepped
      cases stepped

/-! ### Two runs -/

instance (rustic : Rustic) (watched : RetentionState × Watch) (answer : Answer) :
    Decidable (Undisturbed rustic watched answer) := by
  unfold Undisturbed
  split <;> infer_instance

instance (retention : RetentionRun) (watched : RetentionState × Watch) (answer : Answer) :
    Decidable (SettlesAbove retention watched answer) := by
  unfold SettlesAbove
  split <;> infer_instance

/-- One series; the space rule may delete all but the last snapshot. -/
def fourDays : Repository where
  snapshots := [dailySnapshot 1 .notSet, dailySnapshot 2 .notSet, dailySnapshot 3 .notSet, dailySnapshot 4 .notSet]
  blobs := [1, 2, 3, 4]
  distinct := by decide

def fourDaysWatch (usage : Nat) : Watch where
  usage := usage
  candidates := ↑[dailySnapshot 1 .notSet, dailySnapshot 2 .notSet, dailySnapshot 3 .notSet]

def spaceStart (retention : RetentionRun) (usage : Nat) : RetentionState × Watch :=
  (⟨fourDays, {}, retention.spaceStep⟩, fourDaysWatch usage)

/-- A round without failures from one usage to another. -/
def roundAnswers (used after : Nat) : List Answer :=
  List.replicate 9 ⟨false, false, some used, 5, []⟩ ++ [⟨false, false, some after, 5, []⟩]

/-- Two rounds that free almost nothing take all three candidates. -/
theorem shared_days_go_in_two_rounds :
    deletions plainRustic reserveTen (spaceStart reserveTen 30) (roundAnswers 30 29 ++ roundAnswers 29 28) ≤ Nat.log 2 3 + 1 :=
  deletions_logarithmic plainRustic reserveTen ⟨fourDays, {}, reserveTen.spaceStep⟩ (fourDaysWatch 30)
    (roundAnswers 30 29 ++ roundAnswers 29 28) _ rfl rfl (by decide +kernel) (by decide +kernel)

/-- Above the quota every round frees just what it missed, and the next one starts over. -/
theorem days_above_quota_go_one_by_one : ¬∀ (rustic : Rustic) (retention : RetentionRun) (state : RetentionState) (watch : Watch)
    (answers : List Answer) (final : RetentionState × Watch), state.pc = retention.spaceStep →
      run (watchedStep rustic retention) (state, watch) answers = some final →
      Guarded (watchedStep rustic retention) (Undisturbed rustic) (state, watch) answers →
      deletions rustic retention (state, watch) answers ≤ Nat.log 2 watch.candidates.card + 1 := by
  intro always
  have bound := always plainRustic reserveTen ⟨fourDays, {}, reserveTen.spaceStep⟩ (fourDaysWatch 60)
    (roundAnswers 60 50 ++ roundAnswers 50 40 ++ roundAnswers 40 30) _ rfl rfl (by decide +kernel)
  have rounds : deletions plainRustic reserveTen (spaceStart reserveTen 60)
      (roundAnswers 60 50 ++ roundAnswers 50 40 ++ roundAnswers 40 30) = 3 := by rfl
  have candidates : Nat.log 2 (fourDaysWatch 60).candidates.card = 1 := by
    rw [show (fourDaysWatch 60).candidates.card = 3 from rfl]
    norm_num
  change deletions plainRustic reserveTen (spaceStart reserveTen 60)
    (roundAnswers 60 50 ++ roundAnswers 50 40 ++ roundAnswers 40 30) ≤ _ at bound
  omega

end Vaulton.Proofs.RetentionRounds
