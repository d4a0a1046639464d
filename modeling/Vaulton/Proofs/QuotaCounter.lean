import Vaulton.Lib.Machine
import Vaulton.Quota

/-! Linearization of `QuotaCounter::apply_delta`. A call takes effect at its one
successful exchange; a rejected call was decided on a value the counter held while
the call was running. The order of the exchanges is the order of the updates, which
matters because the saturating updates do not commute. -/

namespace Vaulton.Proofs.QuotaCounter
open Vaulton.Lib Vaulton.Quota

variable {ι : Type} [DecidableEq ι] {calls : ι → Delta}

/-- Everything one step can do. A failed exchange and the first load act alike:
both only observe the counter. -/
inductive Move (calls : ι → Delta) (state : CounterState ι) : CounterEvent ι → CounterState ι → Prop where
  | invoked (call : ι) (absent : state.pcs call = none) :
      Move calls state (.invoke call) ⟨state.counter, Function.update state.pcs call (some .load)⟩
  | observed (call : ι) (spurious : Bool) (pc : DeltaPc) (at_pc : state.pcs call = some pc)
      (waiting : pc = .load ∨ ∃ current, pc = .exchange current ∧ ¬(state.counter.bytes = current ∧ spurious = false)) :
      Move calls state (.advance call spurious) ⟨state.counter,
        Function.update state.pcs call (some (attempt (calls call) state.counter.bytes))⟩
  | swapped (call : ι) (at_pc : state.pcs call = some (.exchange state.counter.bytes)) :
      Move calls state (.advance call false)
        ⟨{ state.counter with bytes := (calls call).newTotal state.counter.bytes },
          Function.update state.pcs call (some (.mark ((calls call).newTotal state.counter.bytes)))⟩
  | marked (call : ι) (spurious : Bool) (total : Nat) (at_pc : state.pcs call = some (.mark total)) :
      Move calls state (.advance call spurious) ⟨{ state.counter with dirty := true },
        Function.update state.pcs call (some (.returned (.ok total)))⟩

theorem counterStep_move {state next : CounterState ι} {event : CounterEvent ι}
    (taken : counterStep calls state event = some next) : Move calls state event next := by
  cases event with
  | invoke call =>
    simp only [counterStep] at taken
    split at taken
    · cases taken
      exact .invoked call ‹_›
    · cases taken
  | advance call spurious =>
    simp only [counterStep] at taken
    split at taken
    · cases taken
    next pc at_pc =>
      cases pc with
      | load =>
        cases taken
        exact .observed call spurious .load at_pc (.inl rfl)
      | exchange current =>
        by_cases swaps : state.counter.bytes = current ∧ spurious = false
        · obtain ⟨rfl, rfl⟩ := swaps
          simp only [applyDeltaStep, and_self, if_true, Option.map_some] at taken
          cases taken
          exact .swapped call at_pc
        · simp only [applyDeltaStep, if_neg swaps, Option.map_some] at taken
          cases taken
          exact .observed call spurious _ at_pc (.inr ⟨current, rfl, swaps⟩)
      | mark total =>
        cases taken
        exact .marked call spurious total at_pc
      | returned result => cases taken

/-- The call whose exchange succeeds in this step. -/
def exchanged (state : CounterState ι) : CounterEvent ι → Option ι
  | .advance call false =>
    if state.pcs call = some (.exchange state.counter.bytes) then some call else none
  | _ => none

/-- The calls in the order of their successful exchanges. -/
def exchanges (calls : ι → Delta) (bytes : Nat) (events : List (CounterEvent ι)) : List ι :=
  collect (counterStep calls) exchanged (counterStart bytes) events

/-- The call has begun and not returned. -/
def InFlight (state : CounterState ι) (call : ι) : Prop :=
  ∃ pc, state.pcs call = some pc ∧ ∀ result, pc ≠ .returned result

/-- Past its exchange, with the total it will return. -/
def Committed (state : CounterState ι) (call : ι) (total : Nat) : Prop :=
  state.pcs call = some (.mark total) ∨ state.pcs call = some (.returned (.ok total))

theorem attempt_cases (delta : Delta) (current : Nat) :
    (attempt delta current = .exchange current ∧ delta.newTotal current ≤ delta.limit) ∨
    (attempt delta current = .returned (.err (quotaExceededError delta.id current (delta.newTotal current) delta.limit)) ∧
      delta.limit < delta.newTotal current) := by
  unfold attempt
  split
  next exceeds => exact .inr ⟨rfl, exceeds⟩
  next within => exact .inl ⟨rfl, by omega⟩

private theorem committed_other {state : CounterState ι} {counter : QuotaCounter} {call other : ι} {pc : DeltaPc}
    {total : Nat} (different : other ≠ call) :
    Committed ⟨counter, Function.update state.pcs call (some pc)⟩ other total ↔ Committed state other total := by
  simp [Committed, different]

private theorem committed_same {state : CounterState ι} {counter : QuotaCounter} {call : ι} {pc : DeltaPc}
    {total : Nat} :
    Committed ⟨counter, Function.update state.pcs call (some pc)⟩ call total ↔
      pc = .mark total ∨ pc = .returned (.ok total) := by
  simp [Committed]

private theorem attempt_not_committed (delta : Delta) (current total : Nat) :
    ¬(attempt delta current = .mark total ∨ attempt delta current = .returned (.ok total)) := by
  rcases attempt_cases delta current with ⟨equal, -⟩ | ⟨equal, -⟩ <;> simp [equal]

/-- What the events so far say about every call and about the total. -/
structure History (calls : ι → Delta) (bytes : Nat) (events : List (CounterEvent ι)) (state : CounterState ι) : Prop where
  folded : state.counter.bytes = (exchanges calls bytes events).foldl (fun total call => (calls call).newTotal total) bytes
  once : ∀ call total, Committed state call total → (exchanges calls bytes events).count call = 1
  never : ∀ call, (∀ total, ¬Committed state call total) → (exchanges calls bytes events).count call = 0
  effect : ∀ call total, Committed state call total → ∃ before after,
    Occurs (counterStep calls) (counterStart bytes) events before (.advance call false) after ∧
    exchanged before (.advance call false) = some call ∧ after.counter.bytes = total ∧
    total = (calls call).newTotal before.counter.bytes ∧ total ≤ (calls call).limit
  within : ∀ call current, state.pcs call = some (.exchange current) →
    (calls call).newTotal current ≤ (calls call).limit
  rejected : ∀ call error, state.pcs call = some (.returned (.err error)) → ∃ held,
    Visits (counterStep calls) (counterStart bytes) events held ∧ InFlight held call ∧
    error = quotaExceededError (calls call).id held.counter.bytes
      ((calls call).newTotal held.counter.bytes) (calls call).limit ∧
    (calls call).limit < (calls call).newTotal held.counter.bytes
  quiet : ∀ call, (∀ total, ¬Committed state call total) → ∀ before spurious after,
    Occurs (counterStep calls) (counterStart bytes) events before (.advance call spurious) after →
    after.counter = before.counter

theorem History.initial (bytes : Nat) : History calls bytes [] (counterStart bytes) where
  folded := rfl
  once := by simp [Committed, counterStart]
  never := fun _ _ => rfl
  effect := by simp [Committed, counterStart]
  within := by simp [counterStart]
  rejected := by simp [counterStart]
  quiet := by
    rintro call - before spurious after ⟨first, rest, impossible, -⟩
    simp at impossible

private theorem History.quiet_step {bytes : Nat} {events : List (CounterEvent ι)} {state : CounterState ι}
    {event : CounterEvent ι} {call : ι} {pc : DeltaPc} (history : History calls bytes events state)
    (executed : run (counterStep calls) (counterStart bytes) events = some state)
    (taken : counterStep calls state event = some ⟨state.counter, Function.update state.pcs call (some pc)⟩)
    (unswapped : exchanged state event = none) (uncommitted : ∀ total, ¬Committed state call total)
    (early : ∀ total, ¬(pc = .mark total ∨ pc = .returned (.ok total)))
    (within : ∀ current, pc = .exchange current → (calls call).newTotal current ≤ (calls call).limit)
    (rejected : ∀ error, pc = .returned (.err error) → InFlight state call ∧
      error = quotaExceededError (calls call).id state.counter.bytes
        ((calls call).newTotal state.counter.bytes) (calls call).limit ∧
      (calls call).limit < (calls call).newTotal state.counter.bytes) :
    History calls bytes (events ++ [event]) ⟨state.counter, Function.update state.pcs call (some pc)⟩ := by
  have same : exchanges calls bytes (events ++ [event]) = exchanges calls bytes events := by
    simp [exchanges, collect_concat executed taken, unswapped]
  have prior (other : ι) (total : Nat)
      (holds : Committed ⟨state.counter, Function.update state.pcs call (some pc)⟩ other total) :
      Committed state other total := by
    by_cases equal : other = call
    · subst other
      exact (early total (committed_same.mp holds)).elim
    · exact (committed_other equal).mp holds
  have later (other : ι)
      (absent : ∀ total, ¬Committed ⟨state.counter, Function.update state.pcs call (some pc)⟩ other total) :
      ∀ total, ¬Committed state other total := by
    by_cases equal : other = call
    · subst other
      exact uncommitted
    · exact fun total holds => absent total ((committed_other equal).mpr holds)
  refine ⟨?_, ?_, ?_, ?_, ?_, ?_, ?_⟩
  · rw [same]
    exact history.folded
  · intro other total holds
    rw [same]
    exact history.once other total (prior other total holds)
  · intro other absent
    rw [same]
    exact history.never other (later other absent)
  · intro other total holds
    obtain ⟨before, after, occurs, facts⟩ := history.effect other total (prior other total holds)
    exact ⟨before, after, occurs.concat, facts⟩
  · intro other current at_pc
    by_cases equal : other = call
    · subst other
      exact within current (by simpa using at_pc)
    · exact history.within other current (by simpa [equal] using at_pc)
  · intro other error at_pc
    by_cases equal : other = call
    · subst other
      exact ⟨state, Visits.last executed, rejected error (by simpa using at_pc)⟩
    · obtain ⟨held, visits, facts⟩ := history.rejected other error (by simpa [equal] using at_pc)
      exact ⟨held, visits.concat, facts⟩
  · intro other absent before spurious after occurs
    rcases Occurs.of_concat executed taken occurs with earlier | ⟨rfl, -, rfl⟩
    · exact history.quiet other (later other absent) before spurious after earlier
    · rfl

private theorem History.swap_step {bytes : Nat} {events : List (CounterEvent ι)} {state next : CounterState ι}
    {call : ι} (history : History calls bytes events state)
    (executed : run (counterStep calls) (counterStart bytes) events = some state)
    (taken : counterStep calls state (.advance call false) = some next)
    (at_pc : state.pcs call = some (.exchange state.counter.bytes))
    (moved : next = ⟨{ state.counter with bytes := (calls call).newTotal state.counter.bytes },
      Function.update state.pcs call (some (.mark ((calls call).newTotal state.counter.bytes)))⟩) :
    History calls bytes (events ++ [.advance call false]) next := by
  have swapped : exchanged state (.advance call false) = some call := by simp [exchanged, at_pc]
  have extended : exchanges calls bytes (events ++ [.advance call false]) = exchanges calls bytes events ++ [call] := by
    simp [exchanges, collect_concat executed taken, swapped]
  have fresh : (exchanges calls bytes events).count call = 0 :=
    history.never call (fun total holds => by simp [Committed, at_pc] at holds)
  have occurs := Occurs.last executed taken
  subst moved
  refine ⟨?_, ?_, ?_, ?_, ?_, ?_, ?_⟩
  · rw [extended, List.foldl_append, ← history.folded]
    rfl
  · intro other total holds
    rw [extended, List.count_append]
    by_cases equal : other = call
    · subst other
      simp [fresh]
    · rw [history.once other total ((committed_other equal).mp holds)]
      simp [Ne.symm equal]
  · intro other absent
    have different : other ≠ call := by
      rintro rfl
      exact absent _ (committed_same.mpr (.inl rfl))
    rw [extended, List.count_append, history.never other (fun total holds => absent total ((committed_other different).mpr holds))]
    simp [Ne.symm different]
  · intro other total holds
    by_cases equal : other = call
    · subst other
      have value : total = (calls call).newTotal state.counter.bytes := by
        rcases committed_same.mp holds with same | same
        · exact (DeltaPc.mark.inj same).symm
        · cases same
      exact ⟨state, _, occurs, swapped, value.symm, value, value ▸ history.within call _ at_pc⟩
    · obtain ⟨before, after, earlier, facts⟩ := history.effect other total ((committed_other equal).mp holds)
      exact ⟨before, after, earlier.concat, facts⟩
  · intro other current found
    have different : other ≠ call := by
      rintro rfl
      simp at found
    exact history.within other current (by simpa [different] using found)
  · intro other error found
    have different : other ≠ call := by
      rintro rfl
      simp at found
    obtain ⟨held, visits, facts⟩ := history.rejected other error (by simpa [different] using found)
    exact ⟨held, visits.concat, facts⟩
  · intro other absent before spurious after happened
    have different : other ≠ call := by
      rintro rfl
      exact absent _ (committed_same.mpr (.inl rfl))
    rcases Occurs.of_concat executed taken happened with earlier | ⟨-, same, -⟩
    · exact history.quiet other (fun total holds => absent total ((committed_other different).mpr holds)) before spurious after earlier
    · cases same
      exact (different rfl).elim

private theorem History.mark_step {bytes : Nat} {events : List (CounterEvent ι)} {state next : CounterState ι}
    {call : ι} {spurious : Bool} {total : Nat} (history : History calls bytes events state)
    (executed : run (counterStep calls) (counterStart bytes) events = some state)
    (taken : counterStep calls state (.advance call spurious) = some next)
    (at_pc : state.pcs call = some (.mark total))
    (moved : next = ⟨{ state.counter with dirty := true }, Function.update state.pcs call (some (.returned (.ok total)))⟩) :
    History calls bytes (events ++ [.advance call spurious]) next := by
  have same : exchanges calls bytes (events ++ [.advance call spurious]) = exchanges calls bytes events := by
    have unswapped : exchanged state (.advance call spurious) = none := by
      cases spurious <;> simp [exchanged, at_pc]
    simp [exchanges, collect_concat executed taken, unswapped]
  have committed (other : ι) (value : Nat) : Committed next other value ↔ Committed state other value := by
    subst moved
    by_cases equal : other = call
    · subst other
      simp [Committed, at_pc]
    · exact committed_other equal
  have elsewhere (other : ι) (pc : DeltaPc) (late : ∀ value, pc ≠ .returned (.ok value))
      (found : next.pcs other = some pc) : state.pcs other = some pc := by
    subst moved
    by_cases equal : other = call
    · subst other
      simp only [Function.update_self, Option.some.injEq] at found
      exact (late total found.symm).elim
    · simpa [equal] using found
  refine ⟨?_, ?_, ?_, ?_, ?_, ?_, ?_⟩
  · rw [same, ← history.folded, moved]
  · intro other value holds
    rw [same]
    exact history.once other value ((committed other value).mp holds)
  · intro other absent
    rw [same]
    exact history.never other (fun value holds => absent value ((committed other value).mpr holds))
  · intro other value holds
    obtain ⟨before, after, occurs, facts⟩ := history.effect other value ((committed other value).mp holds)
    exact ⟨before, after, occurs.concat, facts⟩
  · exact fun other current found => history.within other current (elsewhere other _ (by simp) found)
  · intro other error found
    obtain ⟨held, visits, facts⟩ := history.rejected other error (elsewhere other _ (by simp) found)
    exact ⟨held, visits.concat, facts⟩
  · intro other absent before choice after happened
    have uncommitted : ∀ value, ¬Committed state other value := fun value holds => absent value ((committed other value).mpr holds)
    rcases Occurs.of_concat executed taken happened with earlier | ⟨-, equal, -⟩
    · exact history.quiet other uncommitted before choice after earlier
    · cases equal
      exact (uncommitted total (.inl at_pc)).elim

theorem History.step {bytes : Nat} {events : List (CounterEvent ι)} {state next : CounterState ι}
    {event : CounterEvent ι} (history : History calls bytes events state)
    (executed : run (counterStep calls) (counterStart bytes) events = some state)
    (taken : counterStep calls state event = some next) : History calls bytes (events ++ [event]) next := by
  cases counterStep_move taken with
  | invoked call absent =>
    exact history.quiet_step executed taken rfl (by simp [Committed, absent]) (by simp) (by simp) (by simp)
  | observed call spurious pc at_pc waiting =>
    have unswapped : exchanged state (.advance call spurious) = none := by
      cases spurious with
      | true => rfl
      | false =>
        rcases waiting with rfl | ⟨current, rfl, missed⟩
        · simp [exchanged, at_pc]
        · simp only [and_true] at missed
          simp [exchanged, at_pc, Ne.symm missed]
    have flying : InFlight state call := ⟨pc, at_pc, by rcases waiting with rfl | ⟨current, rfl, -⟩ <;> simp⟩
    refine history.quiet_step executed taken unswapped ?_ (attempt_not_committed _ _) ?_ ?_
    · intro total
      rcases waiting with rfl | ⟨current, rfl, -⟩ <;> simp [Committed, at_pc]
    · intro current equal
      rcases attempt_cases (calls call) state.counter.bytes with ⟨same, fits⟩ | ⟨same, -⟩
      · rw [same] at equal
        cases equal
        exact fits
      · rw [same] at equal
        cases equal
    · intro error equal
      rcases attempt_cases (calls call) state.counter.bytes with ⟨same, -⟩ | ⟨same, exceeds⟩
      · rw [same] at equal
        cases equal
      · rw [same] at equal
        cases equal
        exact ⟨flying, rfl, exceeds⟩
  | swapped call at_pc => exact history.swap_step executed taken at_pc rfl
  | marked call spurious total at_pc => exact history.mark_step executed taken at_pc rfl

theorem history_of_run {bytes : Nat} {events : List (CounterEvent ι)} {final : CounterState ι}
    (executed : run (counterStep calls) (counterStart bytes) events = some final) : History calls bytes events final :=
  run_history (History calls bytes) (.initial bytes)
    (fun _ _ _ _ prior history taken => history.step prior taken) executed

/-- Deletes never grow the total and writes are checked against the limit. -/
theorem newTotal_le {delta : Delta} {limit total : Nat} (fits : total ≤ limit)
    (kind : delta.limit = limit ∨ delta.newSize = 0 ∧ delta.limit = u64Max)
    (accepted : delta.newTotal total ≤ delta.limit) : delta.newTotal total ≤ limit := by
  rcases kind with same | ⟨empty, -⟩
  · omega
  · simp only [Delta.newTotal, saturatingAdd, saturatingSub, empty]
    omega

private theorem within_limit {bytes limit : Nat} {events : List (CounterEvent ι)} {final : CounterState ι}
    (executed : run (counterStep calls) (counterStart bytes) events = some final) (fits : bytes ≤ limit)
    (kinds : ∀ call, (calls call).limit = limit ∨ (calls call).newSize = 0 ∧ (calls call).limit = u64Max) :
    final.counter.bytes ≤ limit := by
  refine run_history (fun _ state => state.counter.bytes ≤ limit) fits ?_ executed
  intro before state event next prior holds taken
  cases counterStep_move taken with
  | invoked | observed | marked => exact holds
  | swapped call at_pc =>
    exact newTotal_le holds (kinds call) ((history_of_run prior).within call _ at_pc)

/-- Any number of `apply_delta` calls on one counter, interleaved in any way: an
accepted call took effect once, at its exchange; a rejected call changed nothing and
was decided on a value held while it ran; the total is the fold of the accepted
calls in exchange order, and it respects a limit shared by all writes. -/
theorem apply_delta_linearizable (calls : ι → Delta) (bytes : Nat) (events : List (CounterEvent ι))
    (final : CounterState ι) (executed : run (counterStep calls) (counterStart bytes) events = some final) :
    (∀ call total, final.pcs call = some (.returned (.ok total)) →
      (exchanges calls bytes events).count call = 1 ∧ ∃ before after,
        Occurs (counterStep calls) (counterStart bytes) events before (.advance call false) after ∧
        exchanged before (.advance call false) = some call ∧ after.counter.bytes = total ∧
        total = saturatingAdd (saturatingSub before.counter.bytes (calls call).oldSize) (calls call).newSize ∧
        total ≤ (calls call).limit) ∧
    (∀ call error, final.pcs call = some (.returned (.err error)) →
      (exchanges calls bytes events).count call = 0 ∧
      (∀ before spurious after,
        Occurs (counterStep calls) (counterStart bytes) events before (.advance call spurious) after →
        after.counter = before.counter) ∧
      ∃ held, Visits (counterStep calls) (counterStart bytes) events held ∧ InFlight held call ∧
        error = quotaExceededError (calls call).id held.counter.bytes
          ((calls call).newTotal held.counter.bytes) (calls call).limit ∧
        (calls call).limit < (calls call).newTotal held.counter.bytes) ∧
    final.counter.bytes = (exchanges calls bytes events).foldl (fun total call =>
      saturatingAdd (saturatingSub total (calls call).oldSize) (calls call).newSize) bytes ∧
    (∀ before event after, Occurs (counterStep calls) (counterStart bytes) events before event after →
      exchanged before event = none → after.counter.bytes = before.counter.bytes) ∧
    (∀ limit, bytes ≤ limit →
      (∀ call, (calls call).limit = limit ∨ (calls call).newSize = 0 ∧ (calls call).limit = u64Max) →
      ∀ state, Visits (counterStep calls) (counterStart bytes) events state → state.counter.bytes ≤ limit) := by
  have history := history_of_run executed
  refine ⟨?_, ?_, history.folded, ?_, ?_⟩
  · intro call total returned
    exact ⟨history.once call total (.inr returned), history.effect call total (.inr returned)⟩
  · intro call error returned
    have uncommitted : ∀ total, ¬Committed final call total := by simp [Committed, returned]
    exact ⟨history.never call uncommitted, history.quiet call uncommitted, history.rejected call error returned⟩
  · rintro before event after ⟨-, -, -, -, taken⟩ unswapped
    cases counterStep_move taken with
    | invoked | observed | marked => rfl
    | swapped call at_pc => simp [exchanged, at_pc] at unswapped
  · rintro limit fits kinds state ⟨first, rest, -, prior⟩
    exact within_limit prior fits kinds

theorem apply_delta_alone (calls : ι → Delta) (bytes : Nat) (call : ι) : ∃ events final,
    run (counterStep calls) (counterStart bytes) events = some final ∧
    final.counter = (applyDelta (calls call) (.new bytes)).1 ∧
    final.pcs call = some (.returned (applyDelta (calls call) (.new bytes)).2) := by
  rcases attempt_cases (calls call) bytes with ⟨tried, fits⟩ | ⟨tried, exceeds⟩
  · refine ⟨[.invoke call, .advance call false, .advance call false, .advance call false], ?_⟩
    simp [run, counterStep, counterStart, applyDeltaStep, applyDelta, QuotaCounter.new, tried, Nat.not_lt.mpr fits]
  · refine ⟨[.invoke call, .advance call false], ?_⟩
    simp [run, counterStep, counterStart, applyDeltaStep, applyDelta, QuotaCounter.new, tried, exceeds]

/-- Two writes of six bytes under a limit of ten, the second rejected after it lost
the exchange it had loaded for. -/
def racingWrites (_ : Bool) : Delta := commitWrite "tenant" 10 0 6

def racingSchedule : List (CounterEvent Bool) :=
  [.invoke true, .invoke false, .advance true false, .advance false false, .advance true true,
    .advance true false, .advance false false, .advance true false]

theorem racing_writes_linearized : ∃ final,
    run (counterStep racingWrites) (counterStart 0) racingSchedule = some final ∧
    final.pcs true = some (.returned (.ok 6)) ∧ (exchanges racingWrites 0 racingSchedule).count true = 1 ∧
    final.pcs false = some (.returned (.err (quotaExceededError "tenant" 6 12 10))) ∧
    (exchanges racingWrites 0 racingSchedule).count false = 0 ∧ final.counter.bytes ≤ 10 := by
  have facts := apply_delta_linearizable racingWrites 0 racingSchedule _ rfl
  refine ⟨_, rfl, rfl, (facts.1 true 6 rfl).1, rfl, (facts.2.1 false _ rfl).1, ?_⟩
  exact facts.2.2.2.2 10 (by decide) (fun _ => .inl rfl) _ ⟨racingSchedule, [], rfl, rfl⟩

end Vaulton.Proofs.QuotaCounter
