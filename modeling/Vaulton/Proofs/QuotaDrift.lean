import Vaulton.Lib.Machine
import Vaulton.Proofs.QuotaAccounting
import Vaulton.QuotaClose

/-! When concurrent closes and deletes keep the counter equal to the stored sizes. The
old size is read before the commit and used at the rename, so a call is only right
while the size it read stays true. The invariant is a balance: what the calls in
flight still owe the counter accounts for the whole difference. -/

namespace Vaulton.Proofs.QuotaDrift
open Vaulton.Lib Vaulton.Quota Vaulton.Proofs.QuotaAccounting

variable {ι : Type} {accessor : QuotaAccessor} {tasks : ι → Task}

/-- The paths whose size a call has read and still relies on, with that size. A copy
relies on its source from the staged copy until the source is stat-ed. -/
def expects (accessor : QuotaAccessor) (task : Task) (staged : Option Content) : ClosePc → List (Path × Nat)
  | .statSource =>
    match task, staged with
    | .copy source _, some content => [(source, content.length)]
    | _, _ => []
  | .commit oldSize _ | .rename oldSize _ => [(task.dest, oldSize)]
  | .statNext _ entries => if accessor.backend.deletesAtOnce then [] else entries
  | .remove path size _ entries => (path, size) :: if accessor.backend.deletesAtOnce then [] else entries
  | _ => []

/-- What a call has yet to bring to the counter: an accepted commit runs ahead of its
rename, a delete runs ahead of its release. -/
def owed (accessor : QuotaAccessor) : ClosePc → ℤ
  | .rename oldSize newSize => oldSize - newSize
  | .statNext _ entries | .remove _ _ _ entries =>
    if accessor.backend.deletesAtOnce then -((entries.map Prod.snd).sum : ℤ) else 0
  | .release sizes => -(sizes.sum : ℤ)
  | _ => 0

/-- The staged object exists exactly while its call needs it, with the size the call
is going to account for. -/
def StagedFor : ClosePc → Option Content → Prop
  | .statSource, staged => staged.isSome
  | .statDest newSize, staged | .commit _ newSize, staged | .rename _ newSize, staged =>
    ∃ content, staged = some content ∧ content.length = newSize
  | .cleanup _, _ => True
  | .undo _ _, _ => False
  | _, staged => staged = none

/-- The delta applied next does not saturate. -/
def Exact (counter : QuotaCounter) : ClosePc → Prop
  | .commit oldSize newSize => oldSize ≤ counter.bytes ∧ counter.bytes - oldSize + newSize ≤ u64Max
  | .release (size :: _) => size ≤ counter.bytes ∧ counter.bytes - size ≤ u64Max
  | _ => True

instance (counter : QuotaCounter) : (pc : ClosePc) → Decidable (Exact counter pc)
  | .commit _ _ | .release (_ :: _) => inferInstanceAs (Decidable (_ ∧ _))
  | .release [] | .start | .statSource | .statDest _ | .rename _ _ | .undo _ _ | .cleanup _ | .statNext _ _
  | .remove _ _ _ _ | .done _ => .isTrue trivial

/-- The provisos: backend operations succeed and nothing saturates. -/
def Plain (state : CloseState ι) (move : ι × RenameFate) : Prop :=
  move.2 = .direct ∧ Exact state.counter (state.pcs move.1)

instance (state : CloseState ι) (move : ι × RenameFate) : Decidable (Plain state move) :=
  inferInstanceAs (Decidable (_ ∧ _))

/-- The objects a step is about to replace or delete, with the sizes it leaves. -/
def rewrites (accessor : QuotaAccessor) (task : Task) (staged : Option Content) : ClosePc → List (Path × Nat)
  | .rename _ _ =>
    match staged with
    | some content => [(task.dest, content.length)]
    | none => []
  | .remove path _ _ _ => if accessor.backend.deletesAtOnce then [(path, 0)] else []
  | .statNext [] entries => if accessor.backend.deletesAtOnce then [] else entries.map fun entry => (entry.1, 0)
  | _ => []

/-- The batch a deferring deleter is about to flush names no stored object twice. -/
def Distinct (accessor : QuotaAccessor) : ClosePc → Prop
  | .statNext [] entries =>
    accessor.backend.deletesAtOnce = true ∨ ((entries.filter fun entry => entry.2 ≠ 0).map Prod.fst).Nodup
  | _ => True

instance (accessor : QuotaAccessor) : (pc : ClosePc) → Decidable (Distinct accessor pc)
  | .statNext [] _ => inferInstanceAs (Decidable (_ ∨ _))
  | .statNext (_ :: _) _ | .start | .statSource | .statDest _ | .commit _ _ | .rename _ _ | .undo _ _ | .cleanup _
  | .remove _ _ _ _ | .release _ | .done _ => .isTrue trivial

/-- The step changes the size of no object that another call has read the size of and
still relies on, and flushes no stored object twice. -/
def Undisturbed (accessor : QuotaAccessor) (tasks : ι → Task) (state : CloseState ι) (move : ι × RenameFate) : Prop :=
  Distinct accessor (state.pcs move.1) ∧
  ∀ other, other ≠ move.1 → ∀ entry ∈ expects accessor (tasks other) (state.staged other) (state.pcs other),
    ∀ change ∈ rewrites accessor (tasks move.1) (state.staged move.1) (state.pcs move.1),
      change.1 = entry.1 → change.2 = entry.2

variable [Fintype ι]

instance [DecidableEq ι] (state : CloseState ι) (move : ι × RenameFate) :
    Decidable (Undisturbed accessor tasks state move) :=
  inferInstanceAs (Decidable (_ ∧ _))

structure Balanced (accessor : QuotaAccessor) (tasks : ι → Task) (state : CloseState ι) : Prop where
  conserved : (state.counter.bytes : ℤ) + ∑ call, owed accessor (state.pcs call) = storeBytes state.store
  valid : ∀ call, ∀ entry ∈ expects accessor (tasks call) (state.staged call) (state.pcs call),
    sizeOfPath state.store entry.1 = entry.2
  staged : ∀ call, StagedFor (state.pcs call) (state.staged call)

/-- Flushing a batch removes exactly the recorded sizes; missing objects may repeat. -/
theorem flush_total (entries : List (Path × Nat)) (store : Store)
    (valid : ∀ entry ∈ entries, sizeOfPath store entry.1 = entry.2)
    (distinct : ((entries.filter fun entry => entry.2 ≠ 0).map Prod.fst).Nodup) :
    storeBytes (entries.foldl (fun store entry => store.erase entry.1) store) + (entries.map Prod.snd).sum =
      storeBytes store := by
  induction entries generalizing store with
  | nil => simp
  | cons entry rest ih =>
    obtain ⟨path, size⟩ := entry
    have here : sizeOfPath store path = size := valid (path, size) (by simp)
    have removed := total_erase List.length store path
    have later : ∀ entry ∈ rest, sizeOfPath (store.erase path) entry.1 = entry.2 := by
      intro entry member
      have known := valid entry (by simp [member])
      by_cases same : entry.1 = path
      · have zero : size = 0 := by
          by_contra positive
          have equal : entry.2 = size := by rw [← known, same, here]
          simp only [ne_eq, positive, not_false_eq_true, decide_true, List.filter_cons_of_pos, List.map_cons,
            List.nodup_cons] at distinct
          apply distinct.1
          exact List.mem_map.mpr ⟨entry, List.mem_filter.mpr ⟨member, by simp [equal, positive]⟩, same⟩
        rw [same] at known ⊢
        have erased := weightAt_erase List.length store path
        simp only [sizeOfPath] at known here erased ⊢
        omega
      · rw [sizeOfPath, weightAt_erase_of_ne store same]
        exact known
    have fewer : ((rest.filter fun entry => entry.2 ≠ 0).map Prod.fst).Nodup := by
      refine List.Nodup.sublist (List.Sublist.map _ ?_) distinct
      exact (List.sublist_cons_self _ _).filter _
    have tail := ih (store.erase path) later fewer
    simp only [List.foldl_cons, List.map_cons, List.sum_cons, storeBytes, sizeOfPath] at tail removed here ⊢
    omega

private theorem sizeOfPath_insert (store : Store) (dest path : Path) (content : Content) :
    sizeOfPath (store.insert dest content) path = if path = dest then content.length else sizeOfPath store path := by
  split
  next same =>
    subst path
    exact weightAt_insert store dest content
  next different => exact weightAt_insert_of_ne store content different

private theorem sizeOfPath_erase (store : Store) (gone path : Path) :
    sizeOfPath (store.erase gone) path = if path = gone then 0 else sizeOfPath store path := by
  split
  next same =>
    subst path
    exact weightAt_erase _ store gone
  next different => exact weightAt_erase_of_ne store different

private theorem sizeOfPath_flush (entries : List (Path × Nat)) (store : Store) (path : Path) :
    sizeOfPath (entries.foldl (fun store entry => store.erase entry.1) store) path = sizeOfPath store path ∨
      (path ∈ entries.map Prod.fst ∧
        sizeOfPath (entries.foldl (fun store entry => store.erase entry.1) store) path = 0) := by
  induction entries generalizing store with
  | nil => exact .inl rfl
  | cons entry rest ih =>
    have erased := sizeOfPath_erase store entry.1 path
    rcases ih (store.erase entry.1) with kept | ⟨member, zero⟩
    · rw [List.foldl_cons, kept, erased]
      split
      next same => exact .inr ⟨by simp [same], rfl⟩
      next => exact .inl rfl
    · exact .inr ⟨by simp [member], zero⟩

/-- A step leaves every size as it was, but for the objects it rewrites. -/
theorem closeStep_sizes {task : Task} {store : Store} {staged : Option Content} {counter : QuotaCounter} {pc : ClosePc}
    {turn : Turn} (resolved : ∀ oldSize newSize, pc = .rename oldSize newSize → staged.isSome)
    (taken : closeStep accessor task .direct store staged counter pc = some turn) (path : Path) :
    sizeOfPath turn.store path = sizeOfPath store path ∨
      (path, sizeOfPath turn.store path) ∈ rewrites accessor task staged pc := by
  cases pc with
  | rename oldSize newSize =>
    obtain ⟨content, rfl⟩ := Option.isSome_iff_exists.mp (resolved oldSize newSize rfl)
    cases taken
    rw [sizeOfPath_insert]
    split
    next same => exact .inr (by simp [rewrites, same])
    next => exact .inl rfl
  | remove gone size rest entries =>
    cases taken
    simp only [rewrites]
    split
    · rw [sizeOfPath_erase]
      split
      next same => exact .inr (by simp [same])
      next => exact .inl rfl
    · exact .inl rfl
  | statNext rest entries =>
    cases rest with
    | cons next rest =>
      cases taken
      exact .inl rfl
    | nil =>
      cases taken
      simp only [rewrites]
      split
      · exact .inl rfl
      · rcases sizeOfPath_flush entries store path with kept | ⟨member, zero⟩
        · exact .inl kept
        · right
          rw [zero]
          obtain ⟨entry, inside, rfl⟩ := List.mem_map.mp member
          exact List.mem_map.mpr ⟨entry, inside, rfl⟩
  | start =>
    left
    cases task with
    | copy source dest =>
      simp only [closeStep] at taken
      split at taken <;> cases taken <;> rfl
    | _ =>
      cases taken
      rfl
  | statSource =>
    left
    cases task <;> cases taken
    rfl
  | commit oldSize newSize =>
    left
    simp only [closeStep] at taken
    split at taken <;> cases taken <;> rfl
  | release sizes =>
    left
    cases sizes <;> cases taken <;> rfl
  | done result => cases taken
  | _ =>
    cases taken
    exact .inl rfl

/-! ### One step -/

/-- What one step does for its own call: the balance moves with the store, and what
the call relies on next is true. -/
structure Keeps (accessor : QuotaAccessor) (task : Task) (store : Store) (counter : QuotaCounter) (pc : ClosePc)
    (turn : Turn) : Prop where
  conserved : (turn.counter.bytes : ℤ) + owed accessor turn.pc + storeBytes store =
    counter.bytes + owed accessor pc + storeBytes turn.store
  valid : ∀ entry ∈ expects accessor task turn.staged turn.pc, sizeOfPath turn.store entry.1 = entry.2
  staged : StagedFor turn.pc turn.staged

private theorem commit_bytes {counter : QuotaCounter} (id : String) (limit : Nat) {oldSize newSize : Nat}
    (covers : oldSize ≤ counter.bytes) (fits : counter.bytes - oldSize + newSize ≤ u64Max) :
    (∃ error, applyDelta (commitWrite id limit oldSize newSize) counter = (counter, .err error)) ∨
    ∃ total, applyDelta (commitWrite id limit oldSize newSize) counter = (⟨total, true⟩, .ok total) ∧
      total + oldSize = counter.bytes + newSize := by
  have value : (commitWrite id limit oldSize newSize).newTotal counter.bytes = counter.bytes - oldSize + newSize := by
    simp only [Delta.newTotal, saturatingAdd, saturatingSub, commitWrite]
    omega
  simp only [applyDelta, value]
  split
  · exact .inl ⟨_, rfl⟩
  · exact .inr ⟨_, rfl, by omega⟩

/-! The cases of `closeStep_keeps`. -/

section Cases

variable {task : Task} {store : Store} {staged : Option Content} {counter : QuotaCounter} {turn : Turn}

theorem start_keeps (taken : closeStep accessor task .direct store staged counter .start = some turn)
    (object : StagedFor .start staged) : Keeps accessor task store counter .start turn := by
  cases task with
  | write path content =>
    cases taken
    exact ⟨by simp [owed], by simp [expects], content, rfl, rfl⟩
  | copy source dest =>
    simp only [closeStep] at taken
    split at taken
    next content found =>
      cases taken
      exact ⟨by simp [owed], by simp [expects, weightAt, found], rfl⟩
    next =>
      cases taken
      exact ⟨by simp [owed], by simp [expects], object⟩
  | delete paths =>
    cases taken
    exact ⟨by simp [owed], by simp [expects], object⟩

theorem commit_keeps {oldSize newSize : Nat}
    (taken : closeStep accessor task .direct store staged counter (.commit oldSize newSize) = some turn)
    (valid : sizeOfPath store task.dest = oldSize) (object : StagedFor (.commit oldSize newSize) staged)
    (exact_delta : Exact counter (.commit oldSize newSize)) :
    Keeps accessor task store counter (.commit oldSize newSize) turn := by
  obtain ⟨covers, fits⟩ := exact_delta
  simp only [closeStep] at taken
  rcases commit_bytes accessor.id accessor.limit covers fits with ⟨error, refused⟩ | ⟨sum, accepted, exact⟩
  · rw [refused] at taken
    cases taken
    exact ⟨by simp [owed], by simp [expects], trivial⟩
  · rw [accepted] at taken
    cases taken
    refine ⟨?_, by simpa [expects] using valid, object⟩
    simp only [owed]
    omega

theorem rename_keeps {oldSize newSize : Nat}
    (taken : closeStep accessor task .direct store staged counter (.rename oldSize newSize) = some turn)
    (read : sizeOfPath store task.dest = oldSize) (object : StagedFor (.rename oldSize newSize) staged) :
    Keeps accessor task store counter (.rename oldSize newSize) turn := by
  obtain ⟨content, rfl, length⟩ := object
  cases taken
  have stored := total_insert List.length store task.dest content
  refine ⟨?_, by simp [expects], rfl⟩
  simp only [owed, storeBytes, sizeOfPath] at read stored ⊢
  omega

theorem statNext_keeps {rest : List Path} {entries : List (Path × Nat)}
    (taken : closeStep accessor task .direct store staged counter (.statNext rest entries) = some turn)
    (valid : ∀ entry ∈ expects accessor task staged (.statNext rest entries), sizeOfPath store entry.1 = entry.2)
    (object : StagedFor (.statNext rest entries) staged) (distinct : Distinct accessor (.statNext rest entries)) :
    Keeps accessor task store counter (.statNext rest entries) turn := by
  cases rest with
  | cons path rest =>
    cases taken
    refine ⟨by simp [owed], ?_, object⟩
    intro entry member
    simp only [expects, List.mem_cons] at member
    rcases member with rfl | member
    · rfl
    · exact valid entry member
  | nil =>
    cases taken
    refine ⟨?_, by simp [expects], object⟩
    simp only [owed]
    split
    next => rfl
    next late =>
      have fresh := Or.resolve_left distinct late
      have flushed := flush_total entries store (by simpa [expects, late] using valid) fresh
      simp only [storeBytes] at flushed ⊢
      omega

theorem remove_keeps {path : Path} {size : Nat} {rest : List Path} {entries : List (Path × Nat)}
    (taken : closeStep accessor task .direct store staged counter (.remove path size rest entries) = some turn)
    (valid : ∀ entry ∈ expects accessor task staged (.remove path size rest entries), sizeOfPath store entry.1 = entry.2)
    (object : StagedFor (.remove path size rest entries) staged) :
    Keeps accessor task store counter (.remove path size rest entries) turn := by
  cases taken
  have read : sizeOfPath store path = size := valid (path, size) (by simp [expects])
  have removed := total_erase List.length store path
  cases late : accessor.backend.deletesAtOnce with
  | true =>
    refine ⟨?_, by simp [expects, late], object⟩
    simp only [owed, late, if_true, List.map_append, List.sum_append, List.map_cons, List.map_nil, List.sum_cons,
      List.sum_nil, storeBytes, sizeOfPath] at read removed ⊢
    omega
  | false =>
    refine ⟨by simp [owed, late], ?_, object⟩
    intro entry member
    simp only [expects, late, Bool.false_eq_true, if_false, List.mem_append, List.mem_singleton] at member
    rcases member with member | rfl
    · exact valid entry (by simp [expects, late, member])
    · exact read

theorem release_keeps {sizes : List Nat}
    (taken : closeStep accessor task .direct store staged counter (.release sizes) = some turn)
    (object : StagedFor (.release sizes) staged) (exact_delta : Exact counter (.release sizes)) :
    Keeps accessor task store counter (.release sizes) turn := by
  cases sizes with
  | nil =>
    cases taken
    exact ⟨by simp [owed], by simp [expects], object⟩
  | cons size rest =>
    cases taken
    obtain ⟨covers, fits⟩ := exact_delta
    have released : (applyDelta (commitDelete accessor.id size) counter).1.bytes = counter.bytes - size :=
      applyDelta_delete counter accessor.id size fits
    refine ⟨?_, by simp [expects], object⟩
    simp only [owed, released, List.sum_cons]
    omega

end Cases

theorem closeStep_keeps {task : Task} {store : Store} {staged : Option Content} {counter : QuotaCounter} {pc : ClosePc}
    {turn : Turn} (taken : closeStep accessor task .direct store staged counter pc = some turn)
    (valid : ∀ entry ∈ expects accessor task staged pc, sizeOfPath store entry.1 = entry.2)
    (object : StagedFor pc staged)
    (exact_delta : Exact counter pc) (distinct : Distinct accessor pc) :
    Keeps accessor task store counter pc turn := by
  cases pc with
  | start => exact start_keeps taken object
  | statSource =>
    cases task with
    | copy source dest =>
      cases taken
      obtain ⟨content, rfl⟩ := Option.isSome_iff_exists.mp object
      have read : sizeOfPath store source = content.length := valid (source, content.length) (by simp [expects])
      exact ⟨by simp [owed], by simp [expects], content, rfl, read.symm⟩
    | _ => cases taken
  | statDest newSize =>
    cases taken
    exact ⟨by simp [owed], by simp [expects], object⟩
  | commit oldSize newSize => exact commit_keeps taken (valid (task.dest, oldSize) (by simp [expects])) object exact_delta
  | rename oldSize newSize => exact rename_keeps taken (valid (task.dest, oldSize) (by simp [expects])) object
  | undo oldSize newSize => exact object.elim
  | cleanup error =>
    cases taken
    exact ⟨by simp [owed], by simp [expects], rfl⟩
  | statNext rest entries => exact statNext_keeps taken valid object distinct
  | remove path size rest entries => exact remove_keeps taken valid object
  | release sizes => exact release_keeps taken object exact_delta
  | done result => cases taken

theorem Balanced.initial {store : Store} {counter : QuotaCounter} (counted : counter.bytes = storeBytes store) :
    Balanced accessor tasks (closeStart store counter) where
  conserved := by simp [closeStart, owed, counted]
  valid := by simp [closeStart, expects]
  staged _ := rfl

theorem Balanced.step [DecidableEq ι] {state next : CloseState ι} {move : ι × RenameFate} (balanced : Balanced accessor tasks state)
    (plain : Plain state move) (undisturbed : Undisturbed accessor tasks state move)
    (taken : callStep accessor tasks state move = some next) : Balanced accessor tasks next := by
  obtain ⟨call, fate⟩ := move
  obtain rfl : fate = .direct := plain.1
  obtain ⟨turn, stepped, rfl⟩ := Option.map_eq_some_iff.mp taken
  have keeps := closeStep_keeps stepped (balanced.valid call) (balanced.staged call) plain.2 undisturbed.1
  have resolved (oldSize newSize : Nat) (at_pc : state.pcs call = .rename oldSize newSize) :
      (state.staged call).isSome := by
    have object := balanced.staged call
    rw [at_pc] at object
    obtain ⟨content, found, -⟩ := object
    simp [found]
  refine ⟨?_, ?_, ?_⟩
  · have local_balance := keeps.conserved
    have balance := balanced.conserved
    rw [sum_update (owed accessor) state.pcs call turn.pc]
    dsimp only at local_balance ⊢
    omega
  · intro other entry member
    by_cases same : other = call
    · subst other
      simp only [Function.update_self] at member
      exact keeps.valid entry member
    · simp only [Function.update_of_ne same] at member
      have before := balanced.valid other entry member
      rcases closeStep_sizes resolved stepped entry.1 with kept | rewritten
      · exact kept.trans before
      · exact undisturbed.2 other same entry member _ rewritten rfl
  · intro other
    by_cases same : other = call
    · subst other
      simp only [Function.update_self]
      exact keeps.staged
    · simp only [Function.update_of_ne same]
      exact balanced.staged other

def Finished (state : CloseState ι) : Prop := ∀ call, ∃ result, state.pcs call = .done result

theorem Balanced.settled {state : CloseState ι} (balanced : Balanced accessor tasks state) (finished : Finished state) :
    state.counter.bytes = storeBytes state.store ∧ ∀ call, state.staged call = none := by
  constructor
  · have nothing : ∑ call, owed accessor (state.pcs call) = 0 := by
      apply Finset.sum_eq_zero
      intro call _
      obtain ⟨result, at_pc⟩ := finished call
      rw [at_pc]
      rfl
    have balance := balanced.conserved
    omega
  · intro call
    obtain ⟨result, at_pc⟩ := finished call
    have object := balanced.staged call
    rw [at_pc] at object
    exact object

/-- Concurrent closes and deletes leave the counter equal to the stored sizes when no
step changes the size of an object another call still relies on. -/
theorem undisturbed_closes_keep_the_counter [DecidableEq ι] (accessor : QuotaAccessor) (tasks : ι → Task) (store : Store)
    (counter : QuotaCounter) (moves : List (ι × RenameFate)) (final : CloseState ι)
    (counted : counter.bytes = storeBytes store)
    (plain : Guarded (callStep accessor tasks) Plain (closeStart store counter) moves)
    (undisturbed : Guarded (callStep accessor tasks) (Undisturbed accessor tasks) (closeStart store counter) moves)
    (executed : run (callStep accessor tasks) (closeStart store counter) moves = some final) :
    Finished final → final.counter.bytes = storeBytes final.store ∧ ∀ call, final.staged call = none := by
  intro finished
  have kept (state : CloseState ι) (move : ι × RenameFate) (next : CloseState ι) (balanced : Balanced accessor tasks state)
      (allowed : Plain state move ∧ Undisturbed accessor tasks state move)
      (taken : callStep accessor tasks state move = some next) : Balanced accessor tasks next :=
    balanced.step allowed.1 allowed.2 taken
  exact (guarded_invariant kept (Balanced.initial counted) (guarded_and plain undisturbed) executed).settled finished

def twoCalls : Bool → Task
  | false => .write "a" [1, 2, 3]
  | true => .delete ["b"]

def withB : Store := (∅ : Store).insert "b" [4, 5]

/-- Every step of the write stands beside a step of the delete. -/
def interleaved : List (Bool × RenameFate) :=
  [(false, .direct), (true, .direct), (false, .direct), (true, .direct), (false, .direct), (true, .direct),
    (true, .direct), (false, .direct), (true, .direct), (true, .direct)]

theorem interleaved_closes_counted : ∃ final,
    run (callStep smallAccessor twoCalls) (closeStart withB (.new 2)) interleaved = some final ∧
    final.counter.bytes = storeBytes final.store ∧ final.counter.bytes = 3 := by
  have settled := undisturbed_closes_keep_the_counter smallAccessor twoCalls withB (.new 2) interleaved _
    (by decide) (by decide) (by decide) rfl (by
      intro call
      cases call <;> exact ⟨_, rfl⟩)
  exact ⟨_, rfl, settled.1, by decide⟩

def rivalWrites : Bool → Task
  | false => .write "a" [1, 2]
  | true => .write "a" [3]

/-- Both calls stat the absent object before either commits. -/
def rivalMoves : List (Bool × RenameFate) :=
  [(false, .direct), (true, .direct), (false, .direct), (true, .direct), (false, .direct), (true, .direct),
    (false, .direct), (true, .direct)]

/-- Two overlapping closes of one path are both counted, and one object is stored. -/
theorem rival_writes_drift : ¬∀ (tasks : Bool → Task) (store : Store) (counter : QuotaCounter)
    (moves : List (Bool × RenameFate)) (final : CloseState Bool), counter.bytes = storeBytes store →
    Guarded (callStep smallAccessor tasks) Plain (closeStart store counter) moves →
    run (callStep smallAccessor tasks) (closeStart store counter) moves = some final → Finished final →
    final.counter.bytes = storeBytes final.store := by
  intro always
  have finished := always rivalWrites ∅ (.new 0) rivalMoves _ rfl (by decide) rfl (by
    intro call
    cases call <;> exact ⟨_, rfl⟩)
  exact absurd finished (by decide)

end Vaulton.Proofs.QuotaDrift
