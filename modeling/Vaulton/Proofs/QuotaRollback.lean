import Vaulton.Proofs.QuotaAccounting
import Vaulton.QuotaRollback

/-! What a close whose rename fails leaves behind. The undo subtracts what the commit added,
so it meets the old counter only where neither the commit nor the undo was cut off, and
the object survives only where the removal between the renames did not happen. -/

namespace Vaulton.Proofs.QuotaRollback
open Vaulton.Lib Vaulton.Quota Vaulton.Proofs.QuotaAccounting

variable {accessor : QuotaAccessor} {answers : BackendAnswers} {world after : World} {closer : Closer} {tmp dest : Path}
  {oldSize newSize : Nat}

/-! ### The closes with three fates -/

theorem attemptRename_answers (fate : RenameFate) (store : Store) (tmp dest : Path) :
    attemptRename fate.answers store tmp dest = commitRename fate store tmp dest := by
  cases fate <;> rfl

theorem attemptCommit_answers (fate : RenameFate) (world : World) :
    attemptCommit accessor fate.answers world tmp dest oldSize newSize =
      commitStaged accessor fate world tmp dest oldSize newSize := by
  have removed : fate.answers.removeTmp = true := by cases fate <;> rfl
  rw [attemptCommit, commitStaged, attemptRename_answers, removed]
  rfl

theorem writer_close_answers (fate : RenameFate) (world : World) (writer : QuotaWriter) :
    Closer.close accessor fate.answers world (.ofWriter writer) = writer.close accessor fate world :=
  attemptCommit_answers fate _

theorem copier_close_answers (fate : RenameFate) (world : World) (copier : QuotaCopier) :
    Closer.close accessor fate.answers world (.ofCopier copier) = copier.close accessor fate world := by
  rw [Closer.close, QuotaCopier.close]
  cases world.store.lookup copier.source with
  | none => rfl
  | some content => exact attemptCommit_answers fate _

/-! ### Commit and undo -/

/-- The counter of an accepted commit, and of its undo. -/
def committed (counter oldSize newSize : Nat) : Nat := saturatingAdd (saturatingSub counter oldSize) newSize

theorem applyDelta_ok {delta : Delta} {counter next : QuotaCounter} {total : Nat}
    (accepted : applyDelta delta counter = (next, .ok total)) : next.bytes = delta.newTotal counter.bytes := by
  rw [applyDelta] at accepted
  split at accepted
  · cases accepted
  · cases accepted
    rfl

theorem applyDelta_unlimited (counter : QuotaCounter) (id : String) (oldSize newSize : Nat) :
    (applyDelta (commitWrite id u64Max oldSize newSize) counter).1.bytes = committed counter.bytes oldSize newSize := by
  rw [applyDelta, if_neg]
  · rfl
  · apply Nat.not_lt.mpr
    exact Nat.min_le_right _ _

/-- The undo meets the old counter when the commit took away no more than was there and
did not reach the largest number. -/
theorem undo_restores_iff {counter oldSize newSize : Nat} (counted : counter ≤ u64Max) (old : oldSize ≤ u64Max)
    (new : newSize ≤ u64Max) :
    committed (committed counter oldSize newSize) newSize oldSize = counter ↔
      oldSize ≤ counter ∧ counter - oldSize + newSize ≤ u64Max := by
  simp only [committed, saturatingAdd, saturatingSub]
  omega

/-! ### A failed close -/

theorem attemptRename_failed {store left : Store} {error : Error} (failed : attemptRename answers store tmp dest = (left, some error)) :
    left = attemptRemove answers.removeDest store dest ∧ error = renameError := by
  rw [attemptRename] at failed
  split at failed
  · cases failed
  · dsimp only at failed
    split at failed
    · cases failed
    · cases failed
      exact ⟨rfl, rfl⟩

theorem attemptCommit_failed (failed : attemptCommit accessor answers world tmp dest oldSize newSize = (after, some renameError)) :
    after.store = attemptRemove answers.removeTmp (attemptRemove answers.removeDest world.store dest) tmp ∧
      after.counter.bytes = committed (committed world.counter.bytes oldSize newSize) newSize oldSize := by
  rw [attemptCommit] at failed
  split at failed
  next counter error rejected =>
    -- A rejected commit fails with another error.
    rw [applyDelta] at rejected
    split at rejected
    · cases rejected
      cases failed
    · cases rejected
  next counter total accepted =>
    split at failed
    · cases failed
    next left error renamed =>
      obtain ⟨rfl, rfl⟩ := attemptRename_failed renamed
      have undone := applyDelta_unlimited counter accessor.id newSize oldSize
      rw [applyDelta_ok accepted] at undone
      cases failed
      exact ⟨rfl, undone⟩

theorem lookup_attemptRemove_of_ne {takesEffect : Bool} {store : Store} {path other : Path} (different : other ≠ path) :
    (attemptRemove takesEffect store path).lookup other = store.lookup other := by
  rw [attemptRemove]
  split
  · exact AList.lookup_erase_ne different
  · rfl

theorem lookup_attemptRemove {takesEffect : Bool} {store : Store} {path : Path} :
    (attemptRemove takesEffect store path).lookup path = store.lookup path ↔
      store.lookup path = none ∨ takesEffect = false := by
  rw [attemptRemove]
  split
  next removed =>
    rw [bestEffortRemove, AList.lookup_erase]
    constructor
    · intro same
      exact .inl same.symm
    · intro absent
      rcases absent with missing | kept
      · exact missing.symm
      · rw [removed] at kept
        cases kept
  next kept =>
    constructor
    · intro _
      exact .inr (Bool.eq_false_iff.mpr kept)
    · intro _
      rfl

/-- A writer or copier as the layer makes it, with `u64` sizes. -/
structure Open (world : World) (closer : Closer) : Prop where
  staging : ∃ nanos n, closer.tmp = tmpPathFor closer.dest nanos n
  counted : world.counter.bytes ≤ u64Max
  sized : ∀ path, sizeOfPath world.store path ≤ u64Max
  written : closer.newSize world ≤ u64Max

/-- The object at the destination and the counter are what they were. -/
def Restored (world after : World) (dest : Path) : Prop :=
  after.store.lookup dest = world.store.lookup dest ∧ after.counter.bytes = world.counter.bytes

theorem Open.tmp_ne (opened : Open world closer) : closer.tmp ≠ closer.dest := by
  obtain ⟨nanos, n, named⟩ := opened.staging
  rw [named]
  exact tmpPathFor_ne closer.dest nanos n

theorem close_commits (opened : Open world closer) (failed : closer.close accessor answers world = (after, some renameError)) :
    ∃ content, attemptCommit accessor answers { world with store := world.store.insert closer.tmp content } closer.tmp closer.dest
      (sizeOfPath world.store closer.dest) (closer.newSize world) = (after, some renameError) := by
  cases closer with
  | ofWriter writer =>
    have different : writer.tmpPath ≠ writer.path := opened.tmp_ne
    refine ⟨writer.staged, ?_⟩
    rw [Closer.close] at failed
    dsimp only at failed
    rw [sizeOfPath, weightAt_insert_of_ne _ _ different.symm] at failed
    exact failed
  | ofCopier copier =>
    have different : copier.tmpDest ≠ copier.dest := opened.tmp_ne
    rw [Closer.close] at failed
    cases found : world.store.lookup copier.source with
    | none =>
      rw [found] at failed
      cases failed
    | some content =>
      rw [found] at failed
      dsimp only at failed
      refine ⟨content, ?_⟩
      have size : sizeOfPath (world.store.insert copier.tmpDest content) copier.source = sizeOfPath world.store copier.source := by
        by_cases same : copier.source = copier.tmpDest
        · rw [sizeOfPath, sizeOfPath, same, weightAt_insert, weightAt, ← same, found]
          rfl
        · exact weightAt_insert_of_ne _ _ same
      rw [size, sizeOfPath, weightAt_insert_of_ne _ _ different.symm] at failed
      exact failed

/-- A close whose rename fails after the commit puts everything back exactly when nothing
was removed from the destination and the counter had the old size to give. -/
theorem failed_close_restores_iff (opened : Open world closer)
    (failed : closer.close accessor answers world = (after, some renameError)) :
    Restored world after closer.dest ↔
      (world.store.lookup closer.dest = none ∨ answers.removeDest = false) ∧
        sizeOfPath world.store closer.dest ≤ world.counter.bytes ∧
        world.counter.bytes - sizeOfPath world.store closer.dest + closer.newSize world ≤ u64Max := by
  obtain ⟨content, committing⟩ := close_commits opened failed
  obtain ⟨store, counter⟩ := attemptCommit_failed committing
  have before : (world.store.insert closer.tmp content).lookup closer.dest = world.store.lookup closer.dest :=
    AList.lookup_insert_ne opened.tmp_ne.symm
  apply and_congr
  · rw [store, lookup_attemptRemove_of_ne opened.tmp_ne.symm, ← before]
    exact lookup_attemptRemove
  · rw [counter]
    exact undo_restores_iff opened.counted (opened.sized closer.dest) opened.written

/-! ### Runs -/

def tenant : QuotaAccessor := ⟨"tenant", 10, ⟨false, false⟩⟩

/-- Three bytes under "a", all of them counted. -/
def threeBytes : World := ⟨(∅ : Store).insert "a" [1, 2, 3], ⟨3, false⟩, 0⟩

def overwriteA : Closer := .ofWriter ⟨"a", tmpPathFor "a" 0 0, [9], 1⟩

theorem overwriteA_open : Open threeBytes overwriteA where
  staging := ⟨0, 0, rfl⟩
  counted := by decide
  sized := by
    intro path
    have most := weightAt_le_total List.length threeBytes.store path
    have all : total List.length threeBytes.store = 3 := by rfl
    apply le_trans most
    rw [all]
    decide
  written := by decide

/-- Nothing takes effect: the write is lost, the old object stays. -/
theorem refused_rename_restores : Open threeBytes overwriteA ∧
    ∃ after, overwriteA.close tenant ⟨false, false, false, false⟩ threeBytes = (after, some renameError) ∧
      Restored threeBytes after "a" := by
  have failed : overwriteA.close tenant ⟨false, false, false, false⟩ threeBytes =
      ((overwriteA.close tenant ⟨false, false, false, false⟩ threeBytes).1, some renameError) := by rfl
  refine ⟨overwriteA_open, _, failed, ?_⟩
  apply (failed_close_restores_iff overwriteA_open failed).mpr
  exact ⟨.inr rfl, by decide, by decide⟩

/-- A backend that deletes but does not rename loses the object that was there. -/
theorem failed_rename_loses_object : ¬∀ accessor answers world closer after, Open world closer →
    Closer.close accessor answers world closer = (after, some renameError) → Restored world after closer.dest := by
  intro always
  have restored := always tenant ⟨false, true, false, true⟩ threeBytes overwriteA _ overwriteA_open rfl
  have lost : (none : Option Content) = some [1, 2, 3] := restored.1
  cases lost

end Vaulton.Proofs.QuotaRollback
