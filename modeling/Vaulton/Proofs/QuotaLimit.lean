import Vaulton.Lib.Machine
import Vaulton.Proofs.QuotaAccounting
import Vaulton.QuotaClose

/-! When the counter stays within the limit although renames fail. A commit is checked,
its undo is not: while an overwrite that shrank its object waits for its rename, other
calls may take the room it freed. -/

namespace Vaulton.Proofs.QuotaLimit
open Vaulton.Lib Vaulton.Quota Vaulton.Proofs.QuotaAccounting

variable {ι : Type} {accessor : QuotaAccessor} {tasks : ι → Task}

/-- The undo of an overwrite that shrank its object finds the room it needs. -/
def RoomLeft (limit : Nat) (counter : QuotaCounter) : ClosePc → Prop
  | .undo oldSize newSize => oldSize ≤ newSize ∨ counter.bytes - newSize + oldSize ≤ limit ∨ u64Max ≤ limit
  | _ => True

instance (limit : Nat) (counter : QuotaCounter) : (pc : ClosePc) → Decidable (RoomLeft limit counter pc)
  | .undo _ _ => inferInstanceAs (Decidable (_ ∨ _ ∨ _))
  | .start | .statSource | .statDest _ | .commit _ _ | .rename _ _ | .cleanup _ | .statNext _ _ | .remove _ _ _ _
  | .release _ | .done _ => .isTrue trivial

/-- The call moved has room to undo, should it be about to. -/
def MoverHasRoom (accessor : QuotaAccessor) (state : CloseState ι) (move : ι × RenameFate) : Prop :=
  RoomLeft accessor.limit state.counter (state.pcs move.1)

instance (state : CloseState ι) (move : ι × RenameFate) : Decidable (MoverHasRoom accessor state move) :=
  inferInstanceAs (Decidable (RoomLeft _ _ _))

/-- The commit of a call was accepted, so what it wrote fits. -/
def Accepted (limit : Nat) : ClosePc → Prop
  | .rename _ newSize | .undo _ newSize => newSize ≤ limit ∨ u64Max ≤ limit
  | _ => True

/-! ### What the counter operations do -/

theorem commit_fits {id : String} {limit oldSize newSize : Nat} {counter after : QuotaCounter} {reply : Reply}
    (fits : counter.bytes ≤ limit) (taken : applyDelta (commitWrite id limit oldSize newSize) counter = (after, reply)) :
    after.bytes ≤ limit := by
  unfold applyDelta at taken
  split at taken
  next =>
    cases taken
    exact fits
  next accepted =>
    cases taken
    exact Nat.le_of_not_lt accepted

theorem commit_accepts {id : String} {limit oldSize newSize total : Nat} {counter after : QuotaCounter}
    (accepted : applyDelta (commitWrite id limit oldSize newSize) counter = (after, .ok total)) :
    newSize ≤ limit ∨ u64Max ≤ limit := by
  unfold applyDelta at accepted
  split at accepted
  next => cases accepted
  next within =>
    simp only [Delta.newTotal, commitWrite, saturatingAdd, saturatingSub] at within
    omega

theorem release_fits {id : String} {limit size : Nat} {counter : QuotaCounter} (fits : counter.bytes ≤ limit) :
    (applyDelta (commitDelete id size) counter).1.bytes ≤ limit := by
  unfold applyDelta
  split
  next => exact fits
  next =>
    simp only [Delta.newTotal, commitDelete, saturatingAdd, saturatingSub]
    omega

/-- The undo is never rejected, so it fits exactly when there is room for it. -/
theorem undo_fits_iff {id : String} {limit oldSize newSize : Nat} {counter : QuotaCounter} (fits : counter.bytes ≤ limit)
    (accepted : newSize ≤ limit ∨ u64Max ≤ limit) :
    (applyDelta (commitWrite id u64Max newSize oldSize) counter).1.bytes ≤ limit ↔
      RoomLeft limit counter (.undo oldSize newSize) := by
  unfold applyDelta
  split
  next rejected =>
    simp only [Delta.newTotal, commitWrite, saturatingAdd, saturatingSub] at rejected
    omega
  next =>
    simp only [Delta.newTotal, commitWrite, saturatingAdd, saturatingSub, RoomLeft]
    omega

/-! ### One step -/

/-- Whatever a step does, the counter stays within the limit exactly when an undo finds
its room. -/
theorem closeStep_fits {task : Task} {fate : RenameFate} {store : Store} {staged : Option Content} {counter : QuotaCounter}
    {pc : ClosePc} {turn : Turn} (fits : counter.bytes ≤ accessor.limit) (accepted : Accepted accessor.limit pc)
    (taken : closeStep accessor task fate store staged counter pc = some turn) :
    Accepted accessor.limit turn.pc ∧ (turn.counter.bytes ≤ accessor.limit ↔ RoomLeft accessor.limit counter pc) := by
  cases pc with
  | commit oldSize newSize =>
    simp only [closeStep] at taken
    split at taken
    next after total committed =>
      cases taken
      exact ⟨commit_accepts committed, iff_of_true (commit_fits fits committed) trivial⟩
    next after error committed =>
      cases taken
      exact ⟨trivial, iff_of_true (commit_fits fits committed) trivial⟩
  | undo oldSize newSize =>
    cases taken
    exact ⟨trivial, undo_fits_iff fits accepted⟩
  | rename oldSize newSize =>
    simp only [closeStep] at taken
    split at taken
    next =>
      cases taken
      exact ⟨accepted, iff_of_true fits trivial⟩
    next =>
      cases taken
      exact ⟨trivial, iff_of_true fits trivial⟩
    next => cases taken
  | release sizes =>
    cases sizes with
    | nil =>
      cases taken
      exact ⟨trivial, iff_of_true fits trivial⟩
    | cons size rest =>
      cases taken
      exact ⟨trivial, iff_of_true (release_fits fits) trivial⟩
  | start | statSource =>
    simp only [closeStep] at taken
    repeat' split at taken
    all_goals
      cases taken
      try exact ⟨trivial, iff_of_true fits trivial⟩
  | statNext rest entries =>
    cases rest <;> cases taken <;> exact ⟨trivial, iff_of_true fits trivial⟩
  | statDest newSize | cleanup error | remove path size rest entries =>
    cases taken
    exact ⟨trivial, iff_of_true fits trivial⟩
  | done result => cases taken

/-- The counter is within the limit, and so is whatever an accepted call wrote. -/
structure Within (accessor : QuotaAccessor) (state : CloseState ι) : Prop where
  counter : state.counter.bytes ≤ accessor.limit
  accepted : ∀ call, Accepted accessor.limit (state.pcs call)

theorem Within.initial {store : Store} {counter : QuotaCounter} (fits : counter.bytes ≤ accessor.limit) :
    Within accessor (closeStart store counter : CloseState ι) := ⟨fits, fun _ => trivial⟩

variable [DecidableEq ι]

theorem callStep_fits {state next : CloseState ι} {move : ι × RenameFate} (within : Within accessor state)
    (taken : callStep accessor tasks state move = some next) :
    (∀ call, Accepted accessor.limit (next.pcs call)) ∧
      (next.counter.bytes ≤ accessor.limit ↔ MoverHasRoom accessor state move) := by
  obtain ⟨call, fate⟩ := move
  obtain ⟨turn, moved, rfl⟩ := Option.map_eq_some_iff.mp taken
  obtain ⟨accepted, exact_room⟩ := closeStep_fits within.counter (within.accepted call) moved
  exact ⟨forall_update (fun _ pc => Accepted accessor.limit pc) within.accepted accepted, exact_room⟩

theorem Within.step {state next : CloseState ι} {move : ι × RenameFate} (within : Within accessor state)
    (room : MoverHasRoom accessor state move) (taken : callStep accessor tasks state move = some next) :
    Within accessor next := by
  obtain ⟨accepted, exact_room⟩ := callStep_fits within taken
  exact ⟨exact_room.mpr room, accepted⟩

/-! ### Whole runs -/

theorem room_of_fits {store : Store} {counter : QuotaCounter} {moves : List (ι × RenameFate)} {final : CloseState ι}
    (executed : run (callStep accessor tasks) (closeStart store counter) moves = some final)
    (fits : ∀ before after state, moves = before ++ after →
      run (callStep accessor tasks) (closeStart store counter) before = some state → state.counter.bytes ≤ accessor.limit) :
    Guarded (callStep accessor tasks) (MoverHasRoom accessor) (closeStart store counter) moves := by
  have within : ∀ before after state, moves = before ++ after →
      run (callStep accessor tasks) (closeStart store counter) before = some state → Within accessor state := by
    intro before after state whole reached
    refine ⟨fits before after state whole reached, ?_⟩
    refine run_history (fun before state => (∃ after, moves = before ++ after) →
      ∀ call, Accepted accessor.limit (state.pcs call)) ?_ ?_ reached ⟨after, whole⟩
    · intro _ call
      trivial
    · intro before state move next reached known taken ⟨after, whole⟩
      have prior : moves = before ++ move :: after := by simpa using whole
      exact (callStep_fits ⟨fits before _ state prior reached, known ⟨_, prior⟩⟩ taken).1
  apply guarded_of_occurs executed
  intro state move next ⟨before, after, whole, reached, taken⟩
  have next_fits := fits (before ++ [move]) after next (by simpa using whole) (run_concat.mpr ⟨state, reached, taken⟩)
  exact (callStep_fits (within before _ state whole reached) taken).2.mp next_fits

/-- In a run from a counter within the limit, every state keeps the counter within it
exactly when every undo of an overwrite that shrank its object finds the room it needs. -/
theorem counter_within_limit_iff (accessor : QuotaAccessor) (tasks : ι → Task) (store : Store) (counter : QuotaCounter)
    (moves : List (ι × RenameFate)) (final : CloseState ι) (fits : counter.bytes ≤ accessor.limit)
    (executed : run (callStep accessor tasks) (closeStart store counter) moves = some final) :
    (∀ before after state, moves = before ++ after →
      run (callStep accessor tasks) (closeStart store counter) before = some state →
      state.counter.bytes ≤ accessor.limit) ↔
    Guarded (callStep accessor tasks) (MoverHasRoom accessor) (closeStart store counter) moves := by
  constructor
  · exact room_of_fits executed
  · rintro guarded before after state rfl reached
    have kept (state : CloseState ι) (move : ι × RenameFate) (next : CloseState ι) (within : Within accessor state)
        (room : MoverHasRoom accessor state move) (taken : callStep accessor tasks state move = some next) :
        Within accessor next := within.step room taken
    exact (guarded_invariant kept (Within.initial fits) (guarded_append guarded).1 reached).counter

def fullA : Store := (∅ : Store).insert "a" [1, 2, 3, 4, 5]

def shrinkAndGrow : Bool → Task
  | false => .write "a" [1]
  | true => .write "b" [1, 2, 3, 4]

/-- The rename of the overwrite fails, and nobody has taken the room. -/
def failedOverwrite : List (Bool × RenameFate) :=
  [(false, .direct), (false, .direct), (false, .direct), (false, .fails), (false, .direct), (false, .direct)]

theorem failed_overwrite_within_limit : ∃ final,
    run (callStep smallAccessor shrinkAndGrow) (closeStart fullA (.new 5)) failedOverwrite = some final ∧
    final.counter.bytes ≤ smallAccessor.limit ∧ final.counter.bytes = 5 :=
  ⟨_, rfl, (counter_within_limit_iff smallAccessor shrinkAndGrow fullA (.new 5) failedOverwrite _ (by decide) rfl).mpr
    (by decide) failedOverwrite [] _ rfl rfl, by decide⟩

/-- Between the commit of the overwrite and its failed rename, another write takes the
room that the overwrite had freed. -/
theorem freed_room_is_taken : ∃ final,
    run (callStep smallAccessor shrinkAndGrow) (closeStart fullA (.new 5))
      [(false, .direct), (false, .direct), (false, .direct), (true, .direct), (true, .direct), (true, .direct),
        (true, .direct), (false, .fails), (false, .direct)] = some final ∧
    (QuotaCounter.new 5).bytes ≤ smallAccessor.limit ∧ smallAccessor.limit = 5 ∧ final.counter.bytes = 9 :=
  ⟨_, rfl, by decide, by decide, by decide⟩

end Vaulton.Proofs.QuotaLimit
