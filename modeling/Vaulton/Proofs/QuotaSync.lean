import Vaulton.Lib.Machine
import Vaulton.Quota

/-! The background sync never loses a change. The value and the dirty flag are two
separate words, so the invariant speaks about every position in between: a counter
that is clean, owed no mark and not being synced equals the persisted value. -/

namespace Vaulton.Proofs.QuotaSync
open Vaulton.Lib Vaulton.Quota

variable {ι : Type} [DecidableEq ι] {ops : ι → Op}

/-- The operation has changed the bytes and not yet set the flag. -/
def owing : OpPc → Bool
  | .delta (.mark _) => true
  | .resetMark => true
  | _ => false

/-- The operation runs the initialiser of its cell. -/
def filling : OpPc → Bool
  | .loading => true
  | .publishing _ => true
  | _ => false

def Owes (ops : ι → Op) (state : QuotaState ι) (id : String) : Prop :=
  ∃ op pc, (ops op).id = id ∧ state.pcs op = some pc ∧ owing pc = true

def persisted (state : QuotaState ι) (id : String) : Nat := (state.tracker id).getD 0

/-- The id the sync task has taken the flag of, and not finished with. -/
def syncing : SyncPc → Option String
  | .idle | .visit _ => none
  | .read id _ | .persist id _ _ | .remark id _ => some id

/-- Nothing but the sync task itself stands between the counter and the tracker. -/
def Covered (state : QuotaState ι) (id : String) (counter : QuotaCounter) : Prop :=
  if syncing state.sync = some id then
    ∀ bytes rest, state.sync = .persist id bytes rest → bytes = counter.bytes
  else persisted state id = counter.bytes

structure Synced (ops : ι → Op) (state : QuotaState ι) : Prop where
  counted : ∀ id counter, state.buckets id = some (.set counter) →
    counter.dirty = true ∨ Owes ops state id ∨ Covered state id counter
  filled : ∀ op pc, state.pcs op = some pc → filling pc = true → state.buckets (ops op).id = some .initialising
  read : ∀ op bytes, state.pcs op = some (.publishing bytes) → persisted state (ops op).id = bytes
  alone : ∀ op pc other pc', state.pcs op = some pc → filling pc = true → state.pcs other = some pc' →
    filling pc' = true → (ops op).id = (ops other).id → op = other
  loaded : ∀ id, syncing state.sync = some id → ∃ counter, state.buckets id = some (.set counter)

omit [DecidableEq ι] in
theorem Synced.initial (tracker : String → Option Nat) : Synced ops (stateStart (ι := ι) tracker) := by
  constructor <;> simp [stateStart, syncing]

private theorem Owes.move {state : QuotaState ι} {op : ι} {pc pc' : OpPc} {buckets : String → Option Cell} {id : String}
    (owes : Owes ops state id) (at_pc : state.pcs op = some pc) (paid : id = (ops op).id → owing pc = false) :
    Owes ops { state with buckets, pcs := Function.update state.pcs op (some pc') } id := by
  obtain ⟨other, otherPc, equal, otherAt, owes⟩ := owes
  have different : other ≠ op := by
    intro same
    subst other
    have moved : otherPc = pc := Option.some.inj (otherAt.symm.trans at_pc)
    rw [moved, paid equal.symm] at owes
    cases owes
  exact ⟨other, otherPc, equal, by simpa [different] using otherAt, owes⟩

/-- One rule for every step of an operation. The cell may change only in ways that
keep a counter counted, and a cell under initialisation belongs to its initialiser. -/
private theorem Synced.advance {state : QuotaState ι} {op : ι} {pc pc' : OpPc} {cell : Option Cell}
    (synced : Synced ops state) (at_pc : state.pcs op = some pc)
    (counted : ∀ counter, cell = some (.set counter) → counter.dirty = true ∨ owing pc' = true ∨
      (state.buckets (ops op).id = cell ∧ owing pc = false) ∨ Covered state (ops op).id counter)
    (kept : state.buckets (ops op).id = some .initialising → filling pc = false → cell = some .initialising)
    (set : ∀ counter, state.buckets (ops op).id = some (.set counter) → ∃ counter', cell = some (.set counter'))
    (filled : filling pc' = true → cell = some .initialising ∧
      (filling pc = true ∨ state.buckets (ops op).id ≠ some .initialising))
    (read : ∀ bytes, pc' = .publishing bytes → persisted state (ops op).id = bytes) :
    Synced ops { state with
      buckets := Function.update state.buckets (ops op).id cell
      pcs := Function.update state.pcs op (some pc') } := by
  constructor
  · intro id counter found
    by_cases same : id = (ops op).id
    · subst id
      simp only [Function.update_self] at found
      rcases counted counter found with dirty | owes | ⟨unchanged, paid⟩ | covered
      · exact .inl dirty
      · exact .inr (.inl ⟨op, pc', rfl, by simp, owes⟩)
      · rcases synced.counted _ counter (unchanged.trans found) with dirty | owes | covered
        · exact .inl dirty
        · exact .inr (.inl (owes.move at_pc fun _ => paid))
        · exact .inr (.inr covered)
      · exact .inr (.inr covered)
    · simp only [Function.update_of_ne same] at found
      rcases synced.counted id counter found with dirty | owes | covered
      · exact .inl dirty
      · exact .inr (.inl (owes.move at_pc fun equal => absurd equal same))
      · exact .inr (.inr covered)
  · intro other otherPc otherAt fills
    by_cases same : other = op
    · subst other
      simp only [Function.update_self, Option.some.injEq] at otherAt ⊢
      subst otherAt
      exact (filled fills).1
    · simp only [Function.update_of_ne same] at otherAt
      have initialising := synced.filled other otherPc otherAt fills
      by_cases shared : (ops other).id = (ops op).id
      · rw [shared] at initialising
        simp only [shared, Function.update_self]
        apply kept initialising
        by_contra fillsToo
        simp only [Bool.not_eq_false] at fillsToo
        exact same (synced.alone other otherPc op pc otherAt fills at_pc fillsToo shared)
      · simpa only [Function.update_of_ne shared] using initialising
  · intro other bytes otherAt
    by_cases same : other = op
    · subst other
      simp only [Function.update_self, Option.some.injEq] at otherAt
      exact read bytes otherAt
    · simp only [Function.update_of_ne same] at otherAt
      exact synced.read other bytes otherAt
  · have clash (other : ι) (otherPc : OpPc) (otherAt : state.pcs other = some otherPc)
        (fills : filling otherPc = true) (fills' : filling pc' = true)
        (shared : (ops other).id = (ops op).id) : other = op := by
      rcases (filled fills').2 with fillsToo | free
      · exact synced.alone other otherPc op pc otherAt fills at_pc fillsToo shared
      · exact (free (shared ▸ synced.filled other otherPc otherAt fills)).elim
    intro first firstPc second secondPc firstAt fills secondAt fills' shared
    by_cases left : first = op <;> by_cases right : second = op
    · rw [left, right]
    · subst first
      simp only [Function.update_self, Option.some.injEq, Function.update_of_ne right] at firstAt secondAt
      subst firstAt
      exact (clash second secondPc secondAt fills' fills shared.symm).symm
    · subst second
      simp only [Function.update_self, Option.some.injEq, Function.update_of_ne left] at firstAt secondAt
      subst secondAt
      exact clash first firstPc firstAt fills fills' shared
    · simp only [Function.update_of_ne left, Function.update_of_ne right] at firstAt secondAt
      exact synced.alone first firstPc second secondPc firstAt fills secondAt fills' shared
  · intro id busy
    obtain ⟨counter, found⟩ := synced.loaded id busy
    by_cases same : id = (ops op).id
    · subst id
      simpa using set counter found
    · exact ⟨counter, by simpa [same] using found⟩

private theorem Synced.wait {state : QuotaState ι} {op : ι} {pc pc' : OpPc} (synced : Synced ops state)
    (at_pc : state.pcs op = some pc) (paid : owing pc = false) (idle : filling pc' = false) :
    Synced ops { state with
      buckets := Function.update state.buckets (ops op).id (state.buckets (ops op).id)
      pcs := Function.update state.pcs op (some pc') } := by
  refine synced.advance at_pc (fun counter _ => .inr (.inr (.inl ⟨rfl, paid⟩))) (fun kept _ => kept)
    (fun counter found => ⟨counter, found⟩) (by simp [idle]) ?_
  rintro bytes rfl
  simp [filling] at idle

private theorem Synced.write {state : QuotaState ι} {op : ι} {pc pc' : OpPc} {counter : QuotaCounter}
    (synced : Synced ops state) (at_pc : state.pcs op = some pc) (idle : filling pc' = false)
    (notes : counter.dirty = true ∨ owing pc' = true)
    (free : state.buckets (ops op).id ≠ some .initialising) :
    Synced ops { state with
      buckets := Function.update state.buckets (ops op).id (some (.set counter))
      pcs := Function.update state.pcs op (some pc') } := by
  refine synced.advance at_pc ?_ (fun kept _ => (free kept).elim) (fun _ _ => ⟨counter, rfl⟩) (by simp [idle]) ?_
  · intro written same
    cases same
    rcases notes with dirty | owes
    · exact .inl dirty
    · exact .inr (.inl owes)
  · rintro bytes rfl
    simp [filling] at idle

private theorem Synced.delta_step {state : QuotaState ι} {op : ι} {pc : DeltaPc} {delta : Delta} {spurious : Bool}
    {counter counter' : QuotaCounter} {pc' : DeltaPc} (synced : Synced ops state)
    (at_pc : state.pcs op = some (.delta pc)) (bucket : state.buckets (ops op).id = some (.set counter))
    (taken : applyDeltaStep delta spurious counter pc = some (counter', pc')) {result : OpPc}
    (resumed : result = .delta pc' ∨ ∃ reply, pc' = .returned reply ∧ result = .done reply) :
    Synced ops { state with
      buckets := Function.update state.buckets (ops op).id (some (.set counter'))
      pcs := Function.update state.pcs op (some result) } := by
  have idle : filling result = false := by
    rcases resumed with rfl | ⟨reply, -, rfl⟩ <;> rfl
  have free : state.buckets (ops op).id ≠ some .initialising := by simp [bucket]
  cases pc with
  | load =>
    cases taken
    rw [← bucket]
    exact synced.wait at_pc rfl idle
  | exchange current =>
    simp only [applyDeltaStep] at taken
    split at taken
    · cases taken
      have owes : owing result = true := by
        rcases resumed with rfl | ⟨reply, impossible, -⟩
        · rfl
        · cases impossible
      exact synced.write at_pc idle (.inr owes) free
    · cases taken
      rw [← bucket]
      exact synced.wait at_pc rfl idle
  | mark total =>
    cases taken
    exact synced.write at_pc idle (.inl rfl) free
  | returned reply => cases taken

section Turns

variable {state : QuotaState ι} {op : ι} {pc' : OpPc} {choice : Choice} {cell : Option Cell}

private theorem Synced.first_step (synced : Synced ops state) (at_pc : state.pcs op = some .cell)
    (taken : opStep (ops op) choice (state.tracker (ops op).id) (state.buckets (ops op).id) .cell = some (cell, pc')) :
    Synced ops { state with
      buckets := Function.update state.buckets (ops op).id cell
      pcs := Function.update state.pcs op (some pc') } := by
  simp only [opStep, Option.some.injEq, Prod.mk.injEq] at taken
  obtain ⟨rfl, rfl⟩ := taken
  have idle : filling (ops op).enter = false := by cases ops op <;> rfl
  cases bucket : state.buckets (ops op).id with
  | none =>
    refine synced.advance at_pc ?_ (by simp [bucket]) (by simp [bucket]) (by simp [idle]) ?_
    · simp
    · intro bytes published
      rw [published] at idle
      cases idle
  | some known =>
    simp only [Option.getD_some]
    rw [← bucket]
    exact synced.wait at_pc rfl idle

private theorem Synced.loading_step (synced : Synced ops state) (at_pc : state.pcs op = some .loading)
    (taken : opStep (ops op) choice (state.tracker (ops op).id) (state.buckets (ops op).id) .loading = some (cell, pc')) :
    Synced ops { state with
      buckets := Function.update state.buckets (ops op).id cell
      pcs := Function.update state.pcs op (some pc') } := by
  have bucket := synced.filled op .loading at_pc rfl
  simp only [opStep] at taken
  split at taken
  · cases taken
    exact synced.advance at_pc (by simp) (by simp [filling]) (by simp [bucket]) (by simp [filling]) (by simp)
  · cases taken
    refine synced.advance at_pc (by simp [bucket]) (by simp [bucket]) (by simp [bucket]) (by simp [bucket, filling]) ?_
    intro bytes equal
    cases equal
    rfl

private theorem Synced.publishing_step {bytes : Nat} (synced : Synced ops state) (at_pc : state.pcs op = some (.publishing bytes))
    (taken : opStep (ops op) choice (state.tracker (ops op).id) (state.buckets (ops op).id) (.publishing bytes) = some (cell, pc')) :
    Synced ops { state with
      buckets := Function.update state.buckets (ops op).id cell
      pcs := Function.update state.pcs op (some pc') } := by
  have bucket := synced.filled op _ at_pc rfl
  simp only [opStep, Option.some.injEq, Prod.mk.injEq] at taken
  obtain ⟨rfl, rfl⟩ := taken
  refine synced.advance at_pc ?_ (by simp [filling]) (by simp [bucket]) (by simp [filling]) (by simp)
  intro counter same
  cases same
  -- The sync task only works on published buckets, so it is not on this one.
  have free : syncing state.sync ≠ some (ops op).id := by
    intro busy
    obtain ⟨counter, found⟩ := synced.loaded _ busy
    simp [bucket] at found
  exact .inr (.inr (.inr (by simp [Covered, free, QuotaCounter.new, synced.read op bytes at_pc])))

private theorem Synced.change_step {pc : DeltaPc} (synced : Synced ops state) (at_pc : state.pcs op = some (.delta pc))
    (taken : opStep (ops op) choice (state.tracker (ops op).id) (state.buckets (ops op).id) (.delta pc) = some (cell, pc')) :
    Synced ops { state with
      buckets := Function.update state.buckets (ops op).id cell
      pcs := Function.update state.pcs op (some pc') } := by
  simp only [opStep] at taken
  split at taken
  next delta counter same bucket =>
    split at taken
    next counter' reply moved =>
      cases taken
      exact synced.delta_step at_pc bucket moved (.inr ⟨reply, rfl, rfl⟩)
    next counter' next _ moved =>
      cases taken
      exact synced.delta_step at_pc bucket moved (.inl rfl)
    next => cases taken
  next => cases taken

private theorem Synced.op_step {pc : OpPc} (synced : Synced ops state) (at_pc : state.pcs op = some pc)
    (taken : opStep (ops op) choice (state.tracker (ops op).id) (state.buckets (ops op).id) pc = some (cell, pc')) :
    Synced ops { state with
      buckets := Function.update state.buckets (ops op).id cell
      pcs := Function.update state.pcs op (some pc') } := by
  cases pc with
  | cell => exact synced.first_step at_pc taken
  | init =>
    simp only [opStep] at taken
    split at taken
    next bucket =>
      cases taken
      exact synced.advance at_pc (by simp) (by simp) (by simp [bucket]) (by simp [bucket]) (by simp)
    next counter bucket =>
      cases taken
      exact synced.wait at_pc rfl rfl
    next => cases taken
  | loading => exact synced.loading_step at_pc taken
  | publishing bytes => exact synced.publishing_step at_pc taken
  | delta pc => exact synced.change_step at_pc taken
  | resetGet =>
    simp only [opStep] at taken
    split at taken <;> cases taken <;> exact synced.wait at_pc rfl rfl
  | resetSet =>
    simp only [opStep] at taken
    split at taken
    next bucket =>
      cases taken
      exact synced.write at_pc rfl (.inl rfl) (by simp [bucket])
    next => cases taken; exact synced.wait at_pc rfl rfl
  | resetAgain =>
    simp only [opStep] at taken
    split at taken <;> cases taken <;> exact synced.wait at_pc rfl rfl
  | resetStore =>
    simp only [opStep] at taken
    split at taken
    next counter bucket =>
      cases taken
      exact synced.write at_pc rfl (.inr rfl) (by simp [bucket])
    next => cases taken
  | resetMark =>
    simp only [opStep] at taken
    split at taken
    next counter bucket =>
      cases taken
      exact synced.write at_pc rfl (.inl rfl) (by simp [bucket])
    next => cases taken
  | done result => cases taken

end Turns

omit [DecidableEq ι] in
private theorem Synced.apart {state : QuotaState ι} {op : ι} {pc : OpPc} {id : String} {counter : QuotaCounter}
    (synced : Synced ops state) (bucket : state.buckets id = some (.set counter)) (at_pc : state.pcs op = some pc)
    (fills : filling pc = true) : (ops op).id ≠ id := by
  intro same
  have initialising := synced.filled op pc at_pc fills
  rw [same, bucket] at initialising
  cases initialising

/-- What one step of the sync task can do. -/
inductive SyncTurn {ι : Type} (fails : Bool) (state : QuotaState ι) : QuotaState ι → Prop where
  | finished (visiting : state.sync = .visit []) : SyncTurn fails state { state with sync := .idle }
  | swapped {id : String} {rest : List String} {counter : QuotaCounter} (visiting : state.sync = .visit (id :: rest))
      (bucket : state.buckets id = some (.set counter)) (dirty : counter.dirty = true) : SyncTurn fails state { state with
        buckets := Function.update state.buckets id (some (.set { counter with dirty := false }))
        sync := .read id rest }
  | skipped {id : String} {rest : List String} (visiting : state.sync = .visit (id :: rest))
      (clean : ∀ counter, state.buckets id = some (.set counter) → counter.dirty = false) :
      SyncTurn fails state { state with sync := .visit rest }
  | read {id : String} {rest : List String} {counter : QuotaCounter} (reading : state.sync = .read id rest)
      (bucket : state.buckets id = some (.set counter)) :
      SyncTurn fails state { state with sync := .persist id counter.bytes rest }
  | refused {id : String} {bytes : Nat} {rest : List String} (persisting : state.sync = .persist id bytes rest)
      (failed : fails = true) : SyncTurn fails state { state with sync := .remark id rest }
  | stored {id : String} {bytes : Nat} {rest : List String} (persisting : state.sync = .persist id bytes rest)
      (succeeded : fails = false) : SyncTurn fails state { state with
        tracker := Function.update state.tracker id (some bytes)
        sync := .visit rest }
  | remarked {id : String} {rest : List String} {counter : QuotaCounter} (remarking : state.sync = .remark id rest)
      (bucket : state.buckets id = some (.set counter)) : SyncTurn fails state { state with
        buckets := Function.update state.buckets id (some (.set { counter with dirty := true }))
        sync := .visit rest }

omit [DecidableEq ι] in
theorem syncStep_turn {state next : QuotaState ι} {fails : Bool} (taken : syncStep fails state = some next) :
    SyncTurn fails state next := by
  simp only [syncStep] at taken
  split at taken
  next => cases taken
  next visiting =>
    cases taken
    exact .finished visiting
  next id rest visiting =>
    split at taken
    next counter bucket =>
      split at taken <;> cases taken
      next dirty => exact .swapped visiting bucket dirty
      next clean =>
        refine .skipped visiting ?_
        intro other found
        cases bucket.symm.trans found
        exact Bool.eq_false_iff.mpr clean
    next unset =>
      cases taken
      exact .skipped visiting fun counter found => absurd found (unset counter)
  next id rest reading =>
    split at taken
    next counter bucket =>
      cases taken
      exact .read reading bucket
    next => cases taken
  next id bytes rest persisting =>
    split at taken <;> cases taken
    next failed => exact .refused persisting failed
    next succeeded => exact .stored persisting (Bool.eq_false_iff.mpr succeeded)
  next id rest remarking =>
    split at taken
    next counter bucket =>
      cases taken
      exact .remarked remarking bucket
    next => cases taken

omit [DecidableEq ι] in
/-- A step of the sync task: it touches one bucket and one tracker entry at most, and
only while the id is its own. -/
private theorem Synced.sync_turn {state next : QuotaState ι} {fails : Bool} (synced : Synced ops state)
    (turn : SyncTurn fails state next) : Synced ops next := by
  have owes {state' : QuotaState ι} (same : state'.pcs = state.pcs) {id : String} :
      Owes ops state' id ↔ Owes ops state id := by
    simp [Owes, same]
  cases turn with
  | finished visiting | skipped visiting clean =>
    refine ⟨fun other counter found => ?_, synced.filled, synced.read, synced.alone, by simp [syncing]⟩
    simpa [owes, Covered, persisted, syncing, visiting] using synced.counted other counter found
  | @swapped id rest counter visiting bucket dirty =>
    refine ⟨?_, ?_, synced.read, synced.alone, ?_⟩
    · intro other counter' found
      by_cases same : other = id
      · subst other
        exact .inr (.inr (by simp [Covered, syncing]))
      · have found : state.buckets other = some (.set counter') := by simpa [same] using found
        simpa [owes, Covered, persisted, syncing, visiting, Ne.symm same] using synced.counted other counter' found
    · intro op pc at_pc fills
      simpa [synced.apart bucket at_pc fills] using synced.filled op pc at_pc fills
    · intro other same
      cases same
      exact ⟨_, Function.update_self ..⟩
  | @read id rest counter reading bucket =>
    refine ⟨?_, synced.filled, synced.read, synced.alone, ?_⟩
    · intro other counter' found
      by_cases same : other = id
      · subst other
        have equal : counter' = counter := Cell.set.inj (Option.some.inj (found.symm.trans bucket))
        subst counter'
        exact .inr (.inr (by simp [Covered, syncing]))
      · simpa [owes, Covered, persisted, syncing, reading, Ne.symm same] using synced.counted other counter' found
    · intro other same
      cases same
      exact ⟨counter, bucket⟩
  | @refused id bytes rest persisting failed =>
    refine ⟨?_, synced.filled, synced.read, synced.alone, ?_⟩
    · intro other counter' found
      by_cases same : other = id
      · subst other
        exact .inr (.inr (by simp [Covered, syncing]))
      · simpa [owes, Covered, persisted, syncing, persisting, Ne.symm same] using synced.counted other counter' found
    · intro other same
      cases same
      exact synced.loaded id (by simp [syncing, persisting])
  | @stored id bytes rest persisting succeeded =>
    refine ⟨?_, synced.filled, ?_, synced.alone, by simp [syncing]⟩
    · intro other counter' found
      have prior := synced.counted other counter' found
      by_cases same : other = id
      · subst other
        simpa [owes, Covered, persisted, syncing, persisting] using prior
      · simpa [owes, Covered, persisted, syncing, persisting, same, Ne.symm same] using prior
    · intro op loaded at_pc
      obtain ⟨counter, found⟩ := synced.loaded id (by simp [syncing, persisting])
      simpa [persisted, synced.apart found at_pc rfl] using synced.read op loaded at_pc
  | @remarked id rest counter remarking bucket =>
    refine ⟨?_, ?_, synced.read, synced.alone, by simp [syncing]⟩
    · intro other counter' found
      by_cases same : other = id
      · subst other
        simp only [Function.update_self, Option.some.injEq, Cell.set.injEq] at found
        subst found
        exact .inl rfl
      · have found : state.buckets other = some (.set counter') := by simpa [same] using found
        simpa [owes, Covered, persisted, syncing, remarking, Ne.symm same] using synced.counted other counter' found
    · intro op pc at_pc fills
      simpa [synced.apart bucket at_pc fills] using synced.filled op pc at_pc fills

theorem Synced.step {state next : QuotaState ι} {event : StateEvent ι} (synced : Synced ops state)
    (taken : stateStep ops state event = some next) : Synced ops next := by
  cases event with
  | invoke op =>
    simp only [stateStep] at taken
    split at taken
    next absent =>
      cases taken
      have other {op' : ι} {pc : OpPc} (found : Function.update state.pcs op (some .cell) op' = some pc)
          (late : pc ≠ .cell) : state.pcs op' = some pc := by
        by_cases same : op' = op
        · subst op'
          simp only [Function.update_self, Option.some.injEq] at found
          exact (late found.symm).elim
        · simpa [same] using found
      have fillsLate {pc : OpPc} (fills : filling pc = true) : pc ≠ .cell := by
        rintro rfl
        cases fills
      refine ⟨?_, fun op' pc found fills => synced.filled op' pc (other found (fillsLate fills)) fills,
        fun op' bytes found => synced.read op' bytes (other found (by simp)),
        fun first pc second pc' found fills found' fills' => synced.alone first pc second pc'
          (other found (fillsLate fills)) fills (other found' (fillsLate fills')) fills', synced.loaded⟩
      intro id counter found
      rcases synced.counted id counter found with dirty | ⟨op', pc, equal, at_pc, owes⟩ | covered
      · exact .inl dirty
      · have different : op' ≠ op := by
          rintro rfl
          simp [absent] at at_pc
        exact .inr (.inl ⟨op', pc, equal, by simpa [different] using at_pc, owes⟩)
      · exact .inr (.inr covered)
    next => cases taken
  | advance op choice =>
    simp only [stateStep] at taken
    split at taken
    next => cases taken
    next pc at_pc =>
      obtain ⟨⟨cell, pc'⟩, moved, rfl⟩ := Option.map_eq_some_iff.mp taken
      exact synced.op_step at_pc moved
  | tick ids =>
    simp only [stateStep] at taken
    split at taken
    next idle =>
      cases taken
      refine ⟨fun id counter found => ?_, synced.filled, synced.read, synced.alone, by simp [syncing]⟩
      simpa [Owes, Covered, persisted, syncing, idle] using synced.counted id counter found
    next => cases taken
  | sync fails => exact synced.sync_turn (syncStep_turn taken)

/-- No commit or reset is running and the sync task sleeps. -/
def Quiescent (state : QuotaState ι) : Prop :=
  (∀ op, state.pcs op = none ∨ ∃ result, state.pcs op = some (.done result)) ∧ state.sync = .idle

omit [DecidableEq ι] in
theorem Quiescent.owes_nothing {state : QuotaState ι} (quiet : Quiescent state) (id : String) : ¬Owes ops state id := by
  rintro ⟨op, pc, -, at_pc, owes⟩
  rcases quiet.1 op with absent | ⟨result, done⟩
  · simp [absent] at at_pc
  · rw [done] at at_pc
    cases at_pc
    cases owes

/-- Left alone, one successful pass of the sync task persists a bucket. -/
private theorem pass_persists {state : QuotaState ι} {id : String} {counter : QuotaCounter}
    (idle : state.sync = .idle) (bucket : state.buckets id = some (.set counter))
    (clean : counter.dirty = false → persisted state id = counter.bytes) : ∃ turns next,
    run (stateStep ops) state (.tick [id] :: turns) = some next ∧ (∀ turn ∈ turns, turn = .sync false) ∧
    next.sync = .idle ∧ persisted next id = counter.bytes := by
  cases dirty : counter.dirty with
  | true =>
    refine ⟨[.sync false, .sync false, .sync false, .sync false], ?_⟩
    simp [run, stateStep, syncStep, idle, bucket, dirty, persisted]
  | false =>
    refine ⟨[.sync false, .sync false], ?_⟩
    simpa [run, stateStep, syncStep, idle, bucket, dirty, persisted] using clean dirty

/-- Commits, resets, first loads and syncs in any interleaving, with any pattern of
failed loads and failed `set_bytes`: once nothing is running, a clean counter is the
persisted value, and a dirty one is persisted by the next pass that succeeds. -/
theorem sync_loses_no_change (ops : ι → Op) (tracker : String → Option Nat) (events : List (StateEvent ι))
    (final : QuotaState ι) (executed : run (stateStep ops) (stateStart tracker) events = some final)
    (quiet : Quiescent final) (id : String) (counter : QuotaCounter)
    (bucket : final.buckets id = some (.set counter)) :
    (counter.dirty = false → (final.tracker id).getD 0 = counter.bytes) ∧
    ∃ turns next, run (stateStep ops) final (.tick [id] :: turns) = some next ∧
      (∀ turn ∈ turns, turn = .sync false) ∧ next.sync = .idle ∧ (next.tracker id).getD 0 = counter.bytes := by
  have synced : Synced ops final := run_invariant _ (fun _ _ _ kept taken => kept.step taken) (.initial tracker) executed
  have clean : counter.dirty = false → persisted final id = counter.bytes := by
    intro clean
    rcases synced.counted id counter bucket with dirty | owes | covered
    · simp [clean] at dirty
    · exact (quiet.owes_nothing id owes).elim
    · simpa [Covered, quiet.2, syncing] using covered
  exact ⟨clean, pass_persists quiet.2 bucket clean⟩

/-- A commit lands between the swap of the flag and the read, and the sync fails once. -/
def overlappedOps (first : Bool) : Op :=
  if first then .commit (commitWrite "tenant" 100 0 7) else .reset "tenant"

private def plainTurn : Choice := ⟨false, false⟩

def overlappedSchedule : List (StateEvent Bool) :=
  [.invoke true, .advance true plainTurn, .advance true plainTurn, .advance true plainTurn, .advance true plainTurn,
    .advance true plainTurn, .advance true plainTurn, .advance true plainTurn,
    .tick ["tenant"], .sync false, .invoke false, .advance false plainTurn, .sync false, .advance false plainTurn,
    .advance false plainTurn, .sync true, .sync false, .sync false, .advance false plainTurn,
    .tick ["tenant"], .sync false, .sync false, .sync false, .sync false]

theorem overlapped_reset_persisted : ∃ final,
    run (stateStep overlappedOps) (stateStart fun _ => some 3) overlappedSchedule = some final ∧
    final.buckets "tenant" = some (.set ⟨0, false⟩) ∧ (final.tracker "tenant").getD 0 = 0 := by
  refine ⟨_, rfl, rfl, ?_⟩
  exact (sync_loses_no_change overlappedOps (fun _ => some 3) overlappedSchedule _ rfl
    ⟨fun op => by cases op <;> exact .inr ⟨_, rfl⟩, rfl⟩ "tenant" ⟨0, false⟩ rfl).1 rfl

end Vaulton.Proofs.QuotaSync
