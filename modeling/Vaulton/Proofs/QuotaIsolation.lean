import Vaulton.Lib.Unwinding
import Vaulton.QuotaIsolation
import Vaulton.Proofs.Config
import Vaulton.Proofs.QuotaSync

/-! What happens to one quota id depends on the operations on that id alone. Every step
works on one key of every map, so a step on another id leaves alone all that an id can
see of the state, and what a step on the id itself does is a function of that. -/

namespace Vaulton.Proofs.QuotaIsolation
open Vaulton.Lib Vaulton.Config Vaulton.DataOps Vaulton.Quota Vaulton.QuotaReset Vaulton.QuotaIsolation
  Vaulton.Proofs.Config
open Vaulton.Proofs.QuotaSync (SyncTurn syncStep_turn)

/-! ### Quota ids -/

/-- A point id has a fixed length, so it can be cut off again whatever the username is. -/
theorem quotaId_injective {first second : Text} {point other : Uuid} (same : quotaId first point = quotaId second other) :
    first = second ∧ point = other := by
  have lengths : ('-' :: point.hyphenated).length = ('-' :: other.hyphenated).length := by
    rw [List.length_cons, List.length_cons, hyphenated_length, hyphenated_length]
  obtain ⟨names, points⟩ := List.append_inj' same lengths
  exact ⟨names, hyphenated_injective (List.cons.inj points).2⟩

theorem quotaId_str_ne {first second : Text} {point other : Uuid} (different : (first, point) ≠ (second, other)) :
    (quotaId first point).str ≠ (quotaId second other).str := by
  intro same
  obtain ⟨names, points⟩ := quotaId_injective (String.ofList_injective same)
  exact different (by rw [names, points])

variable {ι κ : Type} {ops : ι → Op} {touched : κ → String} {id : String}

/-! ### What an id sees -/

/-- Where the sync task stands with one id. -/
inductive SyncAt where
  | away
  | read
  | persist (bytes : Nat)
  | remark
  deriving DecidableEq

def syncAt (id : String) : SyncPc → SyncAt
  | .idle | .visit _ => .away
  | .read other _ => if other = id then .read else .away
  | .persist other bytes _ => if other = id then .persist bytes else .away
  | .remark other _ => if other = id then .remark else .away

/-- Two states that one id sees no difference between. -/
structure Alike (ops : ι → Op) (touched : κ → String) (id : String) (first second : SharedState ι κ) : Prop where
  tracker : first.quota.tracker id = second.quota.tracker id
  bucket : first.quota.buckets id = second.quota.buckets id
  pcs : ∀ op, (ops op).id = id → first.quota.pcs op = second.quota.pcs op
  loads : ∀ load, touched load = id → first.loads load = second.loads load
  sync : syncAt id first.quota.sync = syncAt id second.quota.sync

theorem Alike.refl (state : SharedState ι κ) : Alike ops touched id state state :=
  ⟨rfl, rfl, fun _ _ => rfl, fun _ _ => rfl, rfl⟩

theorem Alike.equivalence (ops : ι → Op) (touched : κ → String) (id : String) : Equivalence (Alike ops touched id) where
  refl := Alike.refl
  symm alike := ⟨alike.tracker.symm, alike.bucket.symm, fun op own => (alike.pcs op own).symm,
    fun load own => (alike.loads load own).symm, alike.sync.symm⟩
  trans left right := ⟨left.tracker.trans right.tracker, left.bucket.trans right.bucket,
    fun op own => (left.pcs op own).trans (right.pcs op own),
    fun load own => (left.loads load own).trans (right.loads load own), left.sync.trans right.sync⟩

/-! ### The sync task -/

/-- A step of the sync task on an id, as a function of what the id sees. -/
def syncHere (fails : Bool) (tracker : Option Nat) (cell : Option Cell) : SyncAt → Option (Option Nat × Option Cell × SyncAt)
  | .away =>
    match cell with
    | some (.set counter) =>
      if counter.dirty then some (tracker, some (.set { counter with dirty := false }), .read) else some (tracker, cell, .away)
    | _ => some (tracker, cell, .away)
  | .read =>
    match cell with
    | some (.set counter) => some (tracker, cell, .persist counter.bytes)
    | _ => none
  | .persist bytes => if fails then some (tracker, cell, .remark) else some (some bytes, cell, .away)
  | .remark =>
    match cell with
    | some (.set counter) => some (tracker, some (.set { counter with dirty := true }), .away)
    | _ => none

section Sync

variable {state next : QuotaState ι} {fails : Bool}

theorem syncTurn_pcs (turn : SyncTurn fails state next) : next.pcs = state.pcs := by
  cases turn <;> rfl

theorem syncTurn_here (working : syncId state.sync = some id) (turn : SyncTurn fails state next) :
    syncHere fails (state.tracker id) (state.buckets id) (syncAt id state.sync) =
      some (next.tracker id, next.buckets id, syncAt id next.sync) := by
  cases turn with
  | finished visiting =>
    rw [visiting] at working
    cases working
  | swapped visiting bucket dirty =>
    rw [visiting] at working ⊢
    cases working
    simp [syncAt, syncHere, bucket, dirty]
  | skipped visiting clean =>
    rw [visiting] at working ⊢
    cases working
    simp only [syncAt, syncHere]
    split
    next counter bucket => simp [clean counter bucket]
    next => rfl
  | read reading bucket =>
    rw [reading] at working ⊢
    cases working
    simp [syncAt, syncHere, bucket]
  | refused persisting failed =>
    rw [persisting] at working ⊢
    cases working
    simp [syncAt, syncHere, failed]
  | stored persisting succeeded =>
    rw [persisting] at working ⊢
    cases working
    simp [syncAt, syncHere, succeeded]
  | remarked remarking bucket =>
    rw [remarking] at working ⊢
    cases working
    simp [syncAt, syncHere, bucket]

theorem syncTurn_elsewhere (away : syncId state.sync ≠ some id) (turn : SyncTurn fails state next) :
    next.tracker id = state.tracker id ∧ next.buckets id = state.buckets id ∧
      syncAt id next.sync = syncAt id state.sync := by
  have other_key {other : String} (position : syncId state.sync = some other) : id ≠ other := by
    rintro rfl
    exact away position
  cases turn with
  | finished visiting | skipped visiting clean => simp [visiting, syncAt]
  | @swapped other rest counter visiting bucket dirty =>
    have different : id ≠ other := other_key (by rw [visiting]; rfl)
    simp [visiting, syncAt, different, different.symm]
  | @read other rest counter reading bucket =>
    have different : id ≠ other := other_key (by rw [reading]; rfl)
    simp [reading, syncAt, different.symm]
  | @refused other bytes rest persisting failed =>
    have different : id ≠ other := other_key (by rw [persisting]; rfl)
    simp [persisting, syncAt, different.symm]
  | @stored other bytes rest persisting succeeded =>
    have different : id ≠ other := other_key (by rw [persisting]; rfl)
    simp [persisting, syncAt, different, different.symm]
  | @remarked other rest counter remarking bucket =>
    have different : id ≠ other := other_key (by rw [remarking]; rfl)
    simp [remarking, syncAt, different, different.symm]

end Sync

/-! ### Steps -/

section Steps

variable [DecidableEq ι] [DecidableEq κ] {state next : SharedState ι κ} {event : SharedEvent ι κ}

theorem update_elsewhere {γ α : Type} [DecidableEq γ] {key : γ → String} {positions : γ → α} {moved : γ} {position : α}
    (other : key moved ≠ id) :
    ∀ caller, key caller = id → positions caller = Function.update positions moved position caller := by
  intro caller own
  have different : caller ≠ moved := by
    rintro rfl
    exact other own
  exact (Function.update_of_ne different _ _).symm

theorem Alike.silent (elsewhere : operatesOn ops touched state event ≠ some id)
    (taken : sharedStep ops touched state event = some next) : Alike ops touched id state next := by
  cases event with
  | quota event =>
    obtain ⟨quota, moved, rfl⟩ := Option.map_eq_some_iff.mp taken
    cases event with
    | invoke op =>
      have other : (ops op).id ≠ id := fun same => elsewhere (congrArg some same)
      rw [stateStep] at moved
      split at moved
      · cases moved
        exact ⟨rfl, rfl, update_elsewhere other, fun _ _ => rfl, rfl⟩
      · cases moved
    | advance op choice =>
      have other : (ops op).id ≠ id := fun same => elsewhere (congrArg some same)
      rw [stateStep] at moved
      split at moved
      · cases moved
      · obtain ⟨result, -, rfl⟩ := Option.map_eq_some_iff.mp moved
        exact ⟨rfl, (Function.update_of_ne other.symm _ _).symm, update_elsewhere other, fun _ _ => rfl, rfl⟩
    | tick ids =>
      rw [stateStep] at moved
      split_ifs at moved with idle
      cases moved
      refine ⟨rfl, rfl, fun _ _ => rfl, fun _ _ => rfl, ?_⟩
      rw [idle]
      rfl
    | sync fails =>
      obtain ⟨tracker, bucket, position⟩ := syncTurn_elsewhere elsewhere (syncStep_turn moved)
      have pcs := syncTurn_pcs (syncStep_turn moved)
      exact ⟨tracker.symm, bucket.symm, fun op _ => (congrFun pcs op).symm, fun _ _ => rfl, position.symm⟩
  | invokeLoad load =>
    have other : touched load ≠ id := fun same => elsewhere (congrArg some same)
    rw [sharedStep] at taken
    split at taken
    · cases taken
      exact ⟨rfl, rfl, fun _ _ => rfl, update_elsewhere other, rfl⟩
    · cases taken
  | load load fails =>
    have other : touched load ≠ id := fun same => elsewhere (congrArg some same)
    rw [sharedStep] at taken
    split at taken
    · cases taken
    · obtain ⟨result, -, rfl⟩ := Option.map_eq_some_iff.mp taken
      exact ⟨rfl, (Function.update_of_ne other.symm _ _).symm, fun _ _ => rfl, update_elsewhere other, rfl⟩

theorem update_congr {α : Type} {positions others : ι → α} {moved : ι} {position : α} (own : ι → Prop)
    (alike : ∀ caller, own caller → positions caller = others caller) :
    ∀ caller, own caller →
      Function.update positions moved position caller = Function.update others moved position caller := by
  intro caller owned
  by_cases same : caller = moved
  · subst caller
    rw [Function.update_self, Function.update_self]
  · rw [Function.update_of_ne same, Function.update_of_ne same]
    exact alike caller owned

/-- A step on the id does the same in states the id sees no difference between. -/
theorem Alike.seen {other last : SharedState ι κ} (alike : Alike ops touched id state other)
    (here : operatesOn ops touched state event = some id) (there : operatesOn ops touched other event = some id)
    (taken : sharedStep ops touched state event = some next) (repeated : sharedStep ops touched other event = some last) :
    Alike ops touched id next last := by
  cases event with
  | quota event =>
    obtain ⟨quota, moved, rfl⟩ := Option.map_eq_some_iff.mp taken
    obtain ⟨quota', moved', rfl⟩ := Option.map_eq_some_iff.mp repeated
    cases event with
    | invoke op =>
      have own : (ops op).id = id := Option.some.inj here
      rw [stateStep] at moved moved'
      split at moved
      · split at moved'
        · cases moved
          cases moved'
          exact ⟨alike.tracker, alike.bucket, update_congr _ alike.pcs, alike.loads, alike.sync⟩
        · cases moved'
      · cases moved
    | advance op choice =>
      have own : (ops op).id = id := Option.some.inj here
      rw [stateStep] at moved moved'
      rw [← alike.pcs op own] at moved'
      cases position : state.quota.pcs op with
      | none =>
        rw [position] at moved
        cases moved
      | some pc =>
        rw [position] at moved moved'
        dsimp only at moved moved'
        rw [own, ← alike.tracker, ← alike.bucket] at moved'
        rw [own] at moved
        obtain ⟨result, step, rfl⟩ := Option.map_eq_some_iff.mp moved
        obtain ⟨result', step', rfl⟩ := Option.map_eq_some_iff.mp moved'
        cases step.symm.trans step'
        have written : Function.update state.quota.buckets id result.1 id = Function.update other.quota.buckets id result.1 id := by
          rw [Function.update_self, Function.update_self]
        exact ⟨alike.tracker, written, update_congr _ alike.pcs, alike.loads, alike.sync⟩
    | tick ids => cases here
    | sync fails =>
      have effect := syncTurn_here here (syncStep_turn moved)
      have effect' := syncTurn_here there (syncStep_turn moved')
      rw [← alike.tracker, ← alike.bucket, ← alike.sync, effect, Option.some.injEq, Prod.mk.injEq, Prod.mk.injEq] at effect'
      obtain ⟨tracker, bucket, position⟩ := effect'
      refine ⟨tracker, bucket, ?_, alike.loads, position⟩
      intro op own
      rw [syncTurn_pcs (syncStep_turn moved), syncTurn_pcs (syncStep_turn moved')]
      exact alike.pcs op own
  | invokeLoad load =>
    rw [sharedStep] at taken repeated
    split at taken
    · split at repeated
      · cases taken
        cases repeated
        exact ⟨alike.tracker, alike.bucket, alike.pcs, update_congr _ alike.loads, alike.sync⟩
      · cases repeated
    · cases taken
  | load load fails =>
    have own : touched load = id := Option.some.inj here
    rw [sharedStep] at taken repeated
    rw [← alike.loads load own] at repeated
    cases position : state.loads load with
    | none =>
      rw [position] at taken
      cases taken
    | some pc =>
      rw [position] at taken repeated
      dsimp only at taken repeated
      rw [own, ← alike.tracker, ← alike.bucket] at repeated
      rw [own] at taken
      obtain ⟨result, step, rfl⟩ := Option.map_eq_some_iff.mp taken
      obtain ⟨result', step', rfl⟩ := Option.map_eq_some_iff.mp repeated
      cases step.symm.trans step'
      have written : Function.update state.quota.buckets id result.1 id = Function.update other.quota.buckets id result.1 id := by
        rw [Function.update_self, Function.update_self]
      exact ⟨alike.tracker, written, alike.pcs, update_congr _ alike.loads, alike.sync⟩

end Steps

/-! ### Two runs -/

section Runs

variable [DecidableEq ι] [DecidableEq κ]

/-- The operations of a run in their order, each with the id it is on. -/
def operations (ops : ι → Op) (touched : κ → String) (start : SharedState ι κ) (events : List (SharedEvent ι κ)) :
    List (String × SharedEvent ι κ) :=
  collect (sharedStep ops touched)
    (fun state event => (operatesOn ops touched state event).map fun id => (id, event)) start events

/-- Picks what is done on one id. -/
def about (id : String) (operation : String × SharedEvent ι κ) : Option (SharedEvent ι κ) :=
  if operation.1 = id then some operation.2 else none

theorem unwinding (ops : ι → Op) (touched : κ → String) (id : String) :
    Unwinding (sharedStep ops touched)
      (fun state event => ((operatesOn ops touched state event).map fun id => (id, event)).bind (about id))
      (Alike ops touched id) := by
  have picked {state : SharedState ι κ} {event sight : SharedEvent ι κ}
      (shown : ((operatesOn ops touched state event).map fun id => (id, event)).bind (about id) = some sight) :
      operatesOn ops touched state event = some id ∧ event = sight := by
    obtain ⟨operation, found, chosen⟩ := Option.bind_eq_some_iff.mp shown
    obtain ⟨here, working, rfl⟩ := Option.map_eq_some_iff.mp found
    rw [about] at chosen
    split_ifs at chosen with same
    exact ⟨working.trans (congrArg some same), Option.some.inj chosen⟩
  refine ⟨Alike.equivalence ops touched id, ?_, ?_⟩
  · intro state event next unseen taken
    refine Alike.silent ?_ taken
    intro working
    simp [working, about] at unseen
  · intro first second event other sight next last alike shown repeated taken again
    obtain ⟨here, rfl⟩ := picked shown
    obtain ⟨there, rfl⟩ := picked repeated
    exact alike.seen here there taken again

/-- Runs that do the same on an id, in the same order, end alike for the id. -/
theorem runs_alike {tracker : String → Option Nat} {events others : List (SharedEvent ι κ)} {final last : SharedState ι κ}
    (executed : run (sharedStep ops touched) (sharedStart tracker) events = some final)
    (repeated : run (sharedStep ops touched) (sharedStart tracker) others = some last)
    (same : (operations ops touched (sharedStart tracker) events).filterMap (about id) =
      (operations ops touched (sharedStart tracker) others).filterMap (about id)) : Alike ops touched id final last := by
  refine (unwinding ops touched id).runs_agree (Alike.refl (sharedStart tracker)) executed repeated ?_
  rw [collect_filterMap, collect_filterMap]
  exact same

omit [DecidableEq ι] [DecidableEq κ] in
theorem filterMap_about {hidden : String} (different : id ≠ hidden) (operations : List (String × SharedEvent ι κ)) :
    operations.filterMap (about id) = (operations.filter fun operation => operation.1 ≠ hidden).filterMap (about id) := by
  rw [List.filterMap_filter]
  congr 1
  funext operation
  by_cases here : operation.1 = id
  · have kept : operation.1 ≠ hidden := here ▸ different
    simp [kept]
  · simp [about, here]

end Runs

/-- Two runs that differ only in operations on the quota id of one user's point give the
operations on that of any other user or point the same results, and leave it with the same
current bytes and the same persisted value. -/
theorem quota_ids_are_isolated [DecidableEq ι] [DecidableEq κ] (ops : ι → Op) (touched : κ → String)
    (username otherName : Text) (point otherPoint : Uuid) (different : (username, point) ≠ (otherName, otherPoint))
    (tracker : String → Option Nat) (events others : List (SharedEvent ι κ)) (final last : SharedState ι κ)
    (executed : run (sharedStep ops touched) (sharedStart tracker) events = some final)
    (repeated : run (sharedStep ops touched) (sharedStart tracker) others = some last)
    (same : (operations ops touched (sharedStart tracker) events).filter
        (fun operation => operation.1 ≠ (quotaId otherName otherPoint).str) =
      (operations ops touched (sharedStart tracker) others).filter
        (fun operation => operation.1 ≠ (quotaId otherName otherPoint).str)) :
    (∀ op, (ops op).id = (quotaId username point).str → final.quota.pcs op = last.quota.pcs op) ∧
    (∀ load, touched load = (quotaId username point).str → final.loads load = last.loads load) ∧
    (∀ answer, currentBytes answer (final.quota.buckets (quotaId username point).str) =
      currentBytes answer (last.quota.buckets (quotaId username point).str)) ∧
    final.quota.tracker (quotaId username point).str = last.quota.tracker (quotaId username point).str := by
  have apart := quotaId_str_ne different
  have alike : Alike ops touched (quotaId username point).str final last := by
    refine runs_alike executed repeated ?_
    rw [filterMap_about apart, same, ← filterMap_about apart]
  refine ⟨alike.pcs, alike.loads, ?_, alike.tracker⟩
  intro answer
  rw [alike.bucket]

/-- The name of the second user is that of the first and the separator. -/
def bobAndNamesake : Bool → Op
  | false => .commit (commitWrite (quotaId "bob".toList 1#128).str 10 0 4)
  | true => .reset (quotaId "bob-".toList 1#128).str

def commitAlone : List (SharedEvent Bool Unit) :=
  .quota (.invoke false) :: List.replicate 7 (.quota (.advance false ⟨false, false⟩))

def commitBesideReset : List (SharedEvent Bool Unit) :=
  .quota (.invoke true) :: .quota (.advance true ⟨false, false⟩) :: commitAlone ++
    [.quota (.advance true ⟨false, false⟩), .quota (.advance true ⟨false, false⟩)]

/-- The commit finds what it would find alone, and gives the same total. -/
theorem commit_beside_reset_is_unchanged : ∃ final last : SharedState Bool Unit,
    run (sharedStep bobAndNamesake fun _ => "") (sharedStart fun _ => some 3) commitAlone = some final ∧
    run (sharedStep bobAndNamesake fun _ => "") (sharedStart fun _ => some 3) commitBesideReset = some last ∧
    final.quota.pcs false = some (.done (.ok 7)) ∧ last.quota.pcs false = some (.done (.ok 7)) := by
  refine ⟨_, _, rfl, rfl, rfl, ?_⟩
  have isolated := quota_ids_are_isolated bobAndNamesake (fun _ => "") "bob".toList "bob-".toList 1#128 1#128 (by decide)
    (fun _ => some 3) commitAlone commitBesideReset _ _ rfl rfl (by decide)
  exact (isolated.1 false rfl).symm

end Vaulton.Proofs.QuotaIsolation
