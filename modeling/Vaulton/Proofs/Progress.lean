import Vaulton.Lib.Projection
import Vaulton.Lib.Unwinding
import Vaulton.Lib.Weight
import Vaulton.Progress
import Vaulton.Proofs.EventBus

/-! The bytes the threads of a job count and the increments a client is told. Between two
flushes bytes are only put together, never dropped, and a flush takes them once. -/

namespace Vaulton.Proofs.Progress
open Vaulton.Lib Vaulton.EventBus Vaulton.Quota Vaulton.Progress

variable {ι : Type} [DecidableEq ι] {tx : TxProgress} {what : ι → Call} {now : Nat}
  {state next final : ProgressState ι} {event : ProgressEvent ι} {events before : List (ProgressEvent ι)}

/-! ### One step -/

/-- Everything one step can do. -/
inductive Move (tx : TxProgress) (what : ι → Call) (state : ProgressState ι) : ProgressEvent ι → ProgressState ι → Prop where
  | invoked {call : ι} (at_pc : state.calls call = .absent) : Move tx what state (.invoke call) (state.goto call .called)
  | told {call : ι} {bus : BusState Payload} (at_pc : state.calls call = .called) (uncounted : ∀ inc, what call ≠ .inc inc) :
      Move tx what state (.advance call) { state.goto call .returned with bus }
  | finishing {call : ι} (at_pc : state.calls call = .called) (ends : what call = .finish) :
      Move tx what state (.advance call) (state.goto call .flush)
  | counted {call : ι} {inc : Nat} (at_pc : state.calls call = .called) (adds : what call = .inc inc) :
      Move tx what state (.advance call) ({ state with pending := state.pending.add inc }.goto call
        (if (state.pending.add inc).shouldFlush state.now then .flush else .returned))
  | nothing {call : ι} (at_pc : state.calls call = .flush) (empty : state.pending.bytes = 0) :
      Move tx what state (.advance call) (state.goto call (afterFlush (what call)))
  | taken {call : ι} (at_pc : state.calls call = .flush) (present : state.pending.bytes ≠ 0) :
      Move tx what state (.advance call) ({ state with pending := ⟨0, some state.now⟩ }.goto call (.send state.pending.bytes))
  | handed {call : ι} {increment : Nat} {bus : BusState Payload} (at_pc : state.calls call = .send increment) :
      Move tx what state (.advance call) { state.goto call (afterFlush (what call)) with bus }
  | announced {call : ι} {bus : BusState Payload} (at_pc : state.calls call = .announce) :
      Move tx what state (.advance call) { state.goto call .returned with bus }
  | elapsed (time : Nat) : Move tx what state (.elapse time) { state with now := state.now + time }
  | moved {event : BusEvent Payload} {bus : BusState Payload} : Move tx what state (.bus event) { state with bus }

theorem emit_cases {call : ι} {data : Data Payload} {pc : CallPc} (sent : state.emit call data pc = some next) :
    ∃ bus, busStep state.bus (.send data) = some bus ∧ next = { state.goto call pc with bus } := by
  obtain ⟨bus, placed, rfl⟩ := Option.map_eq_some_iff.mp sent
  exact ⟨bus, placed, rfl⟩

theorem enter_move {call : ι} (at_pc : state.calls call = .called) (taken : enter tx state call (what call) = some next) :
    Move tx what state (.advance call) next := by
  cases kind : what call with
  | inc inc =>
    rw [kind] at taken
    cases taken
    exact .counted at_pc kind
  | finish =>
    rw [kind] at taken
    cases taken
    exact .finishing at_pc kind
  | setLength length =>
    rw [kind] at taken
    obtain ⟨bus, -, rfl⟩ := emit_cases taken
    exact .told at_pc (by simp [kind])
  | setTitle title =>
    rw [kind] at taken
    obtain ⟨bus, -, rfl⟩ := emit_cases taken
    exact .told at_pc (by simp [kind])

theorem callStep_move {call : ι} (taken : callStep tx state call (what call) (state.calls call) = some next) :
    Move tx what state (.advance call) next := by
  cases at_pc : state.calls call with
  | absent | returned =>
    rw [at_pc] at taken
    cases taken
  | called =>
    rw [at_pc] at taken
    exact enter_move at_pc taken
  | flush =>
    rw [at_pc] at taken
    simp only [callStep] at taken
    split at taken
    next empty =>
      cases taken
      exact .nothing at_pc empty
    next present =>
      cases taken
      exact .taken at_pc present
  | send increment =>
    rw [at_pc] at taken
    obtain ⟨bus, -, rfl⟩ := emit_cases taken
    exact .handed at_pc
  | announce =>
    rw [at_pc] at taken
    obtain ⟨bus, -, rfl⟩ := emit_cases taken
    exact .announced at_pc

theorem progressStep_move (taken : progressStep tx what state event = some next) : Move tx what state event next := by
  cases event with
  | invoke call =>
    simp only [progressStep] at taken
    split at taken
    next at_pc =>
      cases taken
      exact .invoked at_pc
    next => cases taken
  | advance call => exact callStep_move taken
  | elapse time =>
    cases taken
    exact .elapsed time
  | bus event =>
    simp only [progressStep] at taken
    split at taken
    next => cases taken
    next =>
      obtain ⟨bus, -, rfl⟩ := Option.map_eq_some_iff.mp taken
      exact .moved

/-! ### What is counted and what is handed over -/

/-- The bytes of every `inc`, in the order of their locks. -/
def counted (tx : TxProgress) (what : ι → Call) (now : Nat) (events : List (ProgressEvent ι)) : List Nat :=
  collect (progressStep tx what) (countedBy what) (progressStart now) events

/-- The increments handed to the channel, in order. -/
def handed (tx : TxProgress) (what : ι → Call) (now : Nat) (events : List (ProgressEvent ι)) : List Nat :=
  collect (progressStep tx what) handedBy (progressStart now) events

theorem measure_update [Fintype ι] (measure : CallPc → Nat) (calls : ι → CallPc) (call : ι) (pc : CallPc) :
    ∑ other, measure (Function.update calls call pc other) + measure (calls call) =
      ∑ other, measure (calls other) + measure pc := by
  have moved := sum_update (fun pc => (measure pc : ℤ)) calls call pc
  rw [← Nat.cast_sum, ← Nat.cast_sum] at moved
  omega

theorem inHand_afterFlush (what : Call) : inHand (afterFlush what) = 0 := by cases what <;> rfl

/-- Handed over, in a caller's hands or pending: that is what was counted, less what the
saturation of the pending bytes takes away. -/
structure Ledger [Fintype ι] (counted handed : List Nat) (state : ProgressState ι) : Prop where
  atMost : handed.sum + ∑ call, inHand (state.calls call) + state.pending.bytes ≤ counted.sum
  exact : counted.sum ≤ u64Max → handed.sum + ∑ call, inHand (state.calls call) + state.pending.bytes = counted.sum

section Ledger

variable [Fintype ι] {counts handeds : List Nat}

omit [DecidableEq ι] in
private theorem Ledger.same (ledger : Ledger counts handeds state) (pending : next.pending.bytes = state.pending.bytes)
    (hands : ∑ call, inHand (next.calls call) = ∑ call, inHand (state.calls call)) : Ledger counts handeds next := by
  refine ⟨?_, ?_⟩
  · rw [pending, hands]
    exact ledger.atMost
  · rw [pending, hands]
    exact ledger.exact

private theorem Ledger.goto (ledger : Ledger counts handeds state) {call : ι} {pc : CallPc} (bus : BusState Payload)
    (before : inHand (state.calls call) = 0) (after : inHand pc = 0) :
    Ledger counts handeds { state.goto call pc with bus } := by
  have hands := measure_update inHand state.calls call pc
  rw [before, after] at hands
  exact ledger.same rfl hands

private theorem Ledger.count (ledger : Ledger counts handeds state) {call : ι} {pc : CallPc} (inc : Nat)
    (before : inHand (state.calls call) = 0) (after : inHand pc = 0) :
    Ledger (counts ++ [inc]) handeds ({ state with pending := state.pending.add inc }.goto call pc) := by
  have hands := measure_update inHand state.calls call pc
  have bound := ledger.atMost
  have equal := ledger.exact
  have bytes : (state.pending.add inc).bytes = min (state.pending.bytes + inc) u64Max := rfl
  rw [before, after] at hands
  refine ⟨?_, ?_⟩
  · simp only [ProgressState.goto, bytes, List.sum_append, List.sum_singleton]
    omega
  · simp only [ProgressState.goto, bytes, List.sum_append, List.sum_singleton]
    omega

private theorem Ledger.take (ledger : Ledger counts handeds state) {call : ι} (lastFlush : Option Nat)
    (before : inHand (state.calls call) = 0) :
    Ledger counts handeds ({ state with pending := ⟨0, lastFlush⟩ }.goto call (.send state.pending.bytes)) := by
  have hands := measure_update inHand state.calls call (.send state.pending.bytes)
  have bound := ledger.atMost
  have equal := ledger.exact
  rw [before, inHand_send] at hands
  refine ⟨?_, ?_⟩
  · simp only [ProgressState.goto]
    omega
  · simp only [ProgressState.goto]
    omega

private theorem Ledger.hand (ledger : Ledger counts handeds state) {call : ι} {pc : CallPc} {increment : Nat}
    (bus : BusState Payload) (before : inHand (state.calls call) = increment) (after : inHand pc = 0) :
    Ledger counts (handeds ++ [increment]) { state.goto call pc with bus } := by
  have hands := measure_update inHand state.calls call pc
  have bound := ledger.atMost
  have equal := ledger.exact
  rw [before, after] at hands
  refine ⟨?_, ?_⟩
  · simp only [ProgressState.goto, List.sum_append, List.sum_singleton]
    omega
  · simp only [ProgressState.goto, List.sum_append, List.sum_singleton]
    omega

private theorem Ledger.move (ledger : Ledger counts handeds state) (move : Move tx what state event next) :
    Ledger (counts ++ (countedBy what state event).toList) (handeds ++ (handedBy state event).toList) next := by
  cases move with
  | @invoked call at_pc =>
    have kept : Ledger counts handeds (state.goto call .called) :=
      ledger.goto state.bus (by rw [at_pc, inHand_absent]) rfl
    simpa [countedBy, handedBy] using kept
  | @told call bus at_pc uncounted =>
    have none : countedBy what state (.advance call) = none := by
      simp only [countedBy, at_pc]
      cases kind : what call <;> simp_all
    have kept : Ledger counts handeds { state.goto call .returned with bus } :=
      ledger.goto bus (by rw [at_pc, inHand_called]) rfl
    simpa [none, handedBy, at_pc] using kept
  | @finishing call at_pc ends =>
    have kept : Ledger counts handeds (state.goto call .flush) :=
      ledger.goto state.bus (by rw [at_pc, inHand_called]) rfl
    simpa [countedBy, handedBy, at_pc, ends] using kept
  | @counted call inc at_pc adds =>
    have quiet : inHand (if (state.pending.add inc).shouldFlush state.now then .flush else .returned) = 0 := by
      split <;> rfl
    have kept := ledger.count inc (by rw [at_pc, inHand_called]) quiet
    simpa [countedBy, handedBy, at_pc, adds] using kept
  | @nothing call at_pc empty =>
    have kept : Ledger counts handeds (state.goto call (afterFlush (what call))) :=
      ledger.goto state.bus (by rw [at_pc, inHand_flush]) (inHand_afterFlush (what call))
    simpa [countedBy, handedBy, at_pc] using kept
  | taken at_pc present =>
    have kept := ledger.take (some state.now) (by rw [at_pc, inHand_flush])
    simpa [countedBy, handedBy, at_pc] using kept
  | @handed call increment bus at_pc =>
    have kept : Ledger counts (handeds ++ [increment]) { state.goto call (afterFlush (what call)) with bus } :=
      ledger.hand bus (by rw [at_pc, inHand_send]) (inHand_afterFlush (what call))
    simpa [countedBy, handedBy, at_pc] using kept
  | @announced call bus at_pc =>
    have kept : Ledger counts handeds { state.goto call .returned with bus } :=
      ledger.goto bus (by rw [at_pc, inHand_announce]) rfl
    simpa [countedBy, handedBy, at_pc] using kept
  | elapsed time =>
    have kept : Ledger counts handeds { state with now := state.now + time } := ledger.same rfl rfl
    simpa [countedBy, handedBy] using kept
  | @moved event bus =>
    have kept : Ledger counts handeds { state with bus } := ledger.same rfl rfl
    simpa [countedBy, handedBy] using kept

theorem ledger_of_run (executed : run (progressStep tx what) (progressStart now) events = some state) :
    Ledger (counted tx what now events) (handed tx what now events) state := by
  apply run_history (fun events state => Ledger (counted tx what now events) (handed tx what now events) state) _ _ executed
  · exact ⟨by simp [counted, handed, collect, progressStart, inHand], by simp [counted, handed, collect, progressStart, inHand]⟩
  · intro before middle event next reached ledger taken
    have later := ledger.move (progressStep_move taken)
    unfold counted handed at later ⊢
    rw [collect_concat reached taken, collect_concat reached taken]
    exact later

end Ledger

/-! ### What a client is told -/

/-- The event a caller sends in its next step. -/
def sending (tx : TxProgress) : Call → CallPc → Option (Data Payload)
  | .setLength length, .called => some (lengthSet tx length)
  | .setTitle title, .called => some (titleSet tx title)
  | _, .send increment => some (stepIncrement tx increment)
  | _, .announce => some (stepFinished tx)
  | _, _ => none

/-- The run of the event path inside a run of the bar. -/
def busTrace (tx : TxProgress) (what : ι → Call) (state : ProgressState ι) : ProgressEvent ι → Option (BusEvent Payload)
  | .advance call => (sending tx (what call) (state.calls call)).map .send
  | .bus event => if sendsOfBar tx event then none else some event
  | .invoke _ | .elapse _ => none

theorem callStep_bus {call : ι} (taken : callStep tx state call (what call) (state.calls call) = some next) :
    match sending tx (what call) (state.calls call) with
    | some data => busStep state.bus (.send data) = some next.bus
    | none => next.bus = state.bus := by
  have sends {data : Data Payload} {pc : CallPc} (sent : state.emit call data pc = some next) :
      busStep state.bus (.send data) = some next.bus := by
    obtain ⟨bus, placed, rfl⟩ := emit_cases sent
    exact placed
  cases at_pc : state.calls call with
  | absent | returned =>
    rw [at_pc] at taken
    cases taken
  | called =>
    rw [at_pc] at taken
    cases kind : what call with
    | setLength length | setTitle title =>
      rw [kind] at taken
      exact sends taken
    | inc inc | finish =>
      rw [kind] at taken
      cases taken
      rfl
  | flush =>
    rw [at_pc] at taken
    simp only [callStep] at taken
    split at taken
    all_goals
      cases taken
      cases what call <;> rfl
  | send increment | announce =>
    rw [at_pc] at taken
    cases kind : what call
    all_goals
      rw [kind] at taken
      exact sends taken

def busProjection (tx : TxProgress) (what : ι → Call) : Projection (progressStep tx what) (@busStep Payload) where
  project := ProgressState.bus
  trace := busTrace tx what
  silent := by
    intro state event next taken quiet
    cases event with
    | invoke call =>
      simp only [progressStep] at taken
      split at taken <;> cases taken
      rfl
    | advance call =>
      have moved := callStep_bus taken
      rw [Option.map_eq_none_iff.mp quiet] at moved
      exact moved
    | elapse time =>
      cases taken
      rfl
    | bus event =>
      simp only [progressStep] at taken
      simp only [busTrace] at quiet
      split at taken
      next => cases taken
      next foreign =>
        rw [if_neg foreign] at quiet
        cases quiet
  moves := by
    intro state event next move taken moved
    cases event with
    | invoke call | elapse time => cases moved
    | advance call =>
      obtain ⟨data, sends, rfl⟩ := Option.map_eq_some_iff.mp moved
      have stepped := callStep_bus taken
      rw [sends] at stepped
      exact stepped
    | bus event =>
      simp only [progressStep] at taken
      simp only [busTrace] at moved
      split at taken
      next => cases taken
      next foreign =>
        rw [if_neg foreign] at moved
        cases moved
        obtain ⟨bus, stepped, rfl⟩ := Option.map_eq_some_iff.mp taken
        exact stepped

/-- The increment of this bar that an event carries. -/
def incrementOf (tx : TxProgress) : Data Payload → Option Nat
  | .jobStepIncrement (.increment jobId barId increment) =>
    if jobId = tx.bar.jobId.hyphenated ∧ barId = tx.bar.barId.hyphenated then some increment else none
  | _ => none

/-- The increments of this bar that all Polls have returned. -/
def told (tx : TxProgress) (what : ι → Call) (now : Nat) (events : List (ProgressEvent ι)) : List Nat :=
  (Proofs.EventBus.polled ((busProjection tx what).events (progressStart now) events)).filterMap
    fun event => event.data.bind (incrementOf tx)

theorem ofBar_of_increment {data : Data Payload} {increment : Nat} (carries : incrementOf tx data = some increment) :
    ofBar tx data = true := by
  cases data with
  | jobStepIncrement payload =>
    cases payload with
    | increment jobId barId amount =>
      simp only [incrementOf] at carries
      split at carries
      next same => simp [ofBar, same]
      next => cases carries
    | _ => cases carries
  | _ => cases carries

theorem incrementOf_sending {call : Call} {pc : CallPc} {data : Data Payload} {increment : Nat}
    (sends : sending tx call pc = some data) (carries : incrementOf tx data = some increment) : pc = .send increment := by
  cases pc with
  | send amount =>
    cases call <;> cases sends <;> simpa [incrementOf, stepIncrement] using carries
  | called => cases call <;> cases sends <;> cases carries
  | announce => cases call <;> cases sends <;> cases carries
  | _ => cases call <;> cases sends

theorem told_sublist (executed : run (progressStep tx what) (progressStart now) events = some state) :
    (told tx what now events).Sublist (handed tx what now events) := by
  have inside := (busProjection tx what).run_inner executed
  have kept := (Proofs.EventBus.kept_of_run inside).inOrder
  have returned : (Proofs.EventBus.polled ((busProjection tx what).events (progressStart now) events)).Sublist
      (Proofs.EventBus.received ((busProjection tx what).events (progressStart now) events)) := by
    apply List.Sublist.trans _ kept
    rw [List.append_assoc]
    exact List.sublist_append_left _ _
  have arrived : (collect busStep receivedBy busStart ((busProjection tx what).events (progressStart now) events)).Sublist
      (Proofs.EventBus.sent ((busProjection tx what).events (progressStart now) events)) := by
    rw [Proofs.EventBus.sent_eq inside]
    exact List.sublist_append_left _ _
  have sent := (busProjection tx what).collect_inner EventBus.sentBy executed
  have carried : ((Proofs.EventBus.sent ((busProjection tx what).events (progressStart now) events)).filterMap
      (incrementOf tx)).Sublist (handed tx what now events) := by
    unfold Proofs.EventBus.sent
    rw [show (busStart : BusState Payload) = (busProjection tx what).project (progressStart now) from rfl, sent,
      ← collect_filterMap]
    apply collect_sublist
    intro state event increment seen
    obtain ⟨data, moved, carries⟩ := Option.bind_eq_some_iff.mp seen
    obtain ⟨move, traced, accepted⟩ := Option.bind_eq_some_iff.mp moved
    cases move with
    | send other =>
      have same : other = data := by
        simp only [EventBus.sentBy] at accepted
        split at accepted <;> cases accepted
        rfl
      subst other
      cases event with
      | invoke call | elapse time => cases traced
      | advance call =>
        obtain ⟨other, sends, equal⟩ := Option.map_eq_some_iff.mp traced
        cases equal
        simp [handedBy, incrementOf_sending sends carries]
      | bus event =>
        simp only [busProjection, busTrace] at traced
        split at traced
        next => cases traced
        next foreign =>
          cases traced
          exact absurd (ofBar_of_increment carries) foreign
    | recv | attempt | poll => cases accepted
  apply List.Sublist.trans _ carried
  apply (returned.filterMap _).trans
  unfold Proofs.EventBus.received
  rw [List.filterMap_map]
  exact arrived.filterMap _

/-- No increment is empty: a flush of nothing sends nothing. -/
theorem handed_positive (executed : run (progressStep tx what) (progressStart now) events = some state) :
    (∀ call increment, state.calls call = .send increment → 0 < increment) ∧
    ∀ increment ∈ handed tx what now events, 0 < increment := by
  apply run_history (fun events state => (∀ call increment, state.calls call = .send increment → 0 < increment) ∧
    ∀ increment ∈ handed tx what now events, 0 < increment) _ _ executed
  · refine ⟨?_, ?_⟩
    · intro call increment equal
      cases equal
    · intro increment member
      cases member
  · intro before middle event next reached kept taken
    obtain ⟨hands, sent⟩ := kept
    have goes {call : ι} {pc : CallPc} (positive : ∀ increment, pc = .send increment → 0 < increment) :
        ∀ other increment, Function.update middle.calls call pc other = .send increment → 0 < increment := by
      intro other increment held
      rcases of_update (fun pc : CallPc => pc = .send increment) held with ⟨rfl, here⟩ | ⟨different, there⟩
      · exact positive increment here
      · exact hands other increment there
    have ends (call : ι) (increment : Nat) : afterFlush (what call) ≠ .send increment := by cases what call <;> simp [afterFlush]
    refine ⟨?_, ?_⟩
    · cases progressStep_move taken with
      | elapsed | moved => exact hands
      | counted => exact goes fun increment equal => by split at equal <;> cases equal
      | nothing => exact goes fun increment equal => absurd equal (ends _ increment)
      | handed => exact goes fun increment equal => absurd equal (ends _ increment)
      | taken at_pc present =>
        apply goes
        intro increment equal
        cases equal
        exact Nat.pos_of_ne_zero present
      | _ => exact goes fun increment equal => nomatch equal
    · intro increment member
      unfold handed at sent member
      rw [collect_concat reached taken, List.mem_append] at member
      rcases member with earlier | now
      · exact sent increment earlier
      · have seen : handedBy middle event = some increment := by simpa using now
        cases event with
        | advance call =>
          simp only [handedBy] at seen
          split at seen
          next amount at_pc =>
            cases seen
            exact hands call increment at_pc
          next => cases seen
        | _ => cases seen

/-- Whatever threads share a bar and however their calls interleave: the increments handed
to the channel, those in a caller's hands and the pending bytes add up to at most what
the calls counted, and to exactly that unless the pending bytes saturate. No increment is
empty, and a client is told some of those handed over, in order and once each, so it never
sees more than was counted. -/
theorem increments_conserved [Fintype ι] (tx : TxProgress) (what : ι → Call) (now : Nat)
    (events : List (ProgressEvent ι)) (final : ProgressState ι)
    (executed : run (progressStep tx what) (progressStart now) events = some final) :
    (handed tx what now events).sum + ∑ call, inHand (final.calls call) + final.pending.bytes ≤ (counted tx what now events).sum ∧
    ((counted tx what now events).sum ≤ u64Max →
      (handed tx what now events).sum + ∑ call, inHand (final.calls call) + final.pending.bytes = (counted tx what now events).sum) ∧
    (∀ increment ∈ handed tx what now events, 0 < increment) ∧
    (told tx what now events).Sublist (handed tx what now events) ∧
    (told tx what now events).sum ≤ (counted tx what now events).sum := by
  have ledger := ledger_of_run executed
  have part := told_sublist executed
  have fewer : (told tx what now events).sum ≤ (handed tx what now events).sum :=
    part.sum_le_sum fun _ _ => Nat.zero_le _
  have bound := ledger.atMost
  exact ⟨bound, ledger.exact, (handed_positive executed).2, part, by omega⟩

/-- Two threads count and one `finish` ends the bar. -/
def smallBar : TxProgress := ⟨⟨1, 2⟩, "transfer".toList⟩

def smallCalls : Fin 3 → Call := ![.inc 300000, .inc 10, .finish]

/-- Both threads find the bar full, and the second has nothing left to flush. -/
def bothFlush : List (ProgressEvent (Fin 3)) :=
  [.invoke 0, .invoke 1, .advance 0, .advance 1, .advance 0, .advance 1, .advance 0, .bus .recv, .bus .attempt, .bus .poll]

theorem both_flush_once : ∃ final, run (progressStep smallBar smallCalls) (progressStart 0) bothFlush = some final ∧
    handed smallBar smallCalls 0 bothFlush = [300010] ∧ told smallBar smallCalls 0 bothFlush = [300010] ∧
    (told smallBar smallCalls 0 bothFlush).sum ≤ (counted smallBar smallCalls 0 bothFlush).sum :=
  ⟨_, rfl, by decide +kernel, by decide +kernel, (increments_conserved smallBar smallCalls 0 bothFlush _ rfl).2.2.2.2⟩

/-! ### What is left pending -/

/-- The times at which bytes were counted. -/
def countTimes (tx : TxProgress) (what : ι → Call) (now : Nat) (events : List (ProgressEvent ι)) : List Nat :=
  collect (progressStep tx what) (fun state event => (countedBy what state event).map fun _ => state.now)
    (progressStart now) events

def Idle (pc : CallPc) : Prop := pc = .absent ∨ pc = .returned

instance (pc : CallPc) : Decidable (Idle pc) := inferInstanceAs (Decidable (_ ∨ _))

omit [DecidableEq ι] in
theorem busy {call : ι} {pc : CallPc} (at_pc : state.calls call = pc) (absent : pc ≠ .absent) (returned : pc ≠ .returned) :
    ¬Idle (state.calls call) := by
  rw [at_pc]
  exact fun idle => idle.elim absent returned

/-- The last bytes were counted less than an interval after the last flush. -/
def Recent (times : List Nat) (pending : PendingIncrement) : Prop :=
  pending.bytes < progressFlushBytes ∧ ∃ last time, pending.lastFlush = some last ∧ times.getLast? = some time ∧
    time - last < progressFlushInterval

theorem recent_of_kept {pending : PendingIncrement} {time : Nat} (times : List Nat)
    (kept : pending.shouldFlush time = false) : Recent (times ++ [time]) pending := by
  simp only [PendingIncrement.shouldFlush, Bool.or_eq_false_iff, decide_eq_false_iff_not, Nat.not_le] at kept
  obtain ⟨few, soon⟩ := kept
  cases flushed : pending.lastFlush with
  | none => simp [flushed] at soon
  | some last =>
    simp only [flushed, Option.map_some, Option.getD_some, decide_eq_false_iff_not, Nat.not_le] at soon
    exact ⟨few, last, time, flushed, by simp, soon⟩

/-- Somebody is about to flush, or what is pending is nothing or fresh. -/
def Attended (times : List Nat) (state : ProgressState ι) : Prop :=
  (∃ call, state.calls call = .flush) ∨ state.pending.bytes = 0 ∨ Recent times state.pending

private theorem Attended.goto {times : List Nat} {call : ι} {pc : CallPc} (bus : BusState Payload)
    (attended : Attended times state) (stays : state.calls call ≠ .flush) :
    Attended times { state.goto call pc with bus } := by
  rcases attended with flushing | pending
  · exact .inl (exists_update (fun pc : CallPc => pc = .flush) flushing fun equal => absurd equal stays)
  · exact .inr pending

private theorem Attended.move {times : List Nat} (attended : Attended times state) (move : Move tx what state event next) :
    Attended (times ++ ((countedBy what state event).map fun _ => state.now).toList) next := by
  cases move with
  | @invoked call at_pc =>
    have kept : Attended times (state.goto call .called) := attended.goto state.bus (by simp [at_pc])
    simpa [countedBy] using kept
  | @told call bus at_pc uncounted =>
    have none : countedBy what state (.advance call) = none := by
      simp only [countedBy, at_pc]
      cases kind : what call <;> simp_all
    have kept : Attended times { state.goto call .returned with bus } := attended.goto bus (by simp [at_pc])
    simpa [none] using kept
  | @finishing call at_pc ends => exact .inl ⟨call, Function.update_self ..⟩
  | @counted call inc at_pc adds =>
    by_cases due : (state.pending.add inc).shouldFlush state.now = true
    · refine .inl ⟨call, ?_⟩
      simp [ProgressState.goto, due]
    · right
      right
      have counts : countedBy what state (.advance call) = some inc := by simp [countedBy, at_pc, adds]
      rw [counts]
      exact recent_of_kept times (Bool.not_eq_true _ ▸ due)
  | nothing at_pc empty => exact .inr (.inl empty)
  | taken at_pc present => exact .inr (.inl rfl)
  | @handed call increment bus at_pc =>
    have kept : Attended times { state.goto call (afterFlush (what call)) with bus } := attended.goto bus (by simp [at_pc])
    simpa [countedBy, at_pc] using kept
  | @announced call bus at_pc =>
    have kept : Attended times { state.goto call .returned with bus } := attended.goto bus (by simp [at_pc])
    simpa [countedBy, at_pc] using kept
  | elapsed | moved =>
    simp only [countedBy, Option.map_none, Option.toList_none, List.append_nil]
    exact attended

/-- When no call is under way, fewer than 256 KiB are pending, and the last of them were
counted less than 50 ms after the last flush. -/
theorem pending_bytes_are_recent (tx : TxProgress) (what : ι → Call) (now : Nat) (events : List (ProgressEvent ι))
    (final : ProgressState ι) (executed : run (progressStep tx what) (progressStart now) events = some final)
    (idle : ∀ call, Idle (final.calls call)) :
    final.pending.bytes = 0 ∨ Recent (countTimes tx what now events) final.pending := by
  have attended : Attended (countTimes tx what now events) final := by
    apply run_history (fun events state => Attended (countTimes tx what now events) state) _ _ executed
    · exact .inr (.inl rfl)
    · intro before middle event next reached kept taken
      unfold countTimes at kept ⊢
      rw [collect_concat reached taken]
      exact kept.move (progressStep_move taken)
  rcases attended with ⟨call, flushing⟩ | pending
  · rcases idle call with absent | returned
    · cases absent.symm.trans flushing
    · cases returned.symm.trans flushing
  · exact pending

/-- A few bytes after a flush stay pending. -/
def oneAfterAnother : List (ProgressEvent (Fin 3)) :=
  [.invoke 0, .advance 0, .advance 0, .advance 0, .elapse 5, .invoke 1, .advance 1]

theorem a_few_bytes_stay : ∃ final, run (progressStep smallBar smallCalls) (progressStart 0) oneAfterAnother = some final ∧
    final.pending.bytes = 10 ∧
    (final.pending.bytes = 0 ∨ Recent (countTimes smallBar smallCalls 0 oneAfterAnother) final.pending) :=
  ⟨_, rfl, rfl, pending_bytes_are_recent smallBar smallCalls 0 oneAfterAnother _ rfl (by decide)⟩

/-! ### The end of a bar -/

/-- `finish` is called when no other call is under way, and none begins before it returns. -/
def finishAlone (what : ι → Call) (state : ProgressState ι) : ProgressEvent ι → Prop
  | .invoke call => (what call = .finish → ∀ other, Idle (state.calls other)) ∧
      ∀ other, what other = .finish → Idle (state.calls other)
  | _ => True

instance [Fintype ι] (what : ι → Call) (state : ProgressState ι) (event : ProgressEvent ι) :
    Decidable (finishAlone what state event) :=
  match event with
  | .invoke _ => inferInstanceAs (Decidable (_ ∧ _))
  | .advance _ | .elapse _ | .bus _ => inferInstanceAs (Decidable True)

/-- Past the flush. -/
def Past (pc : CallPc) : Prop := pc = .announce ∨ ∃ increment, pc = .send increment

structure Ending (what : ι → Call) (state : ProgressState ι) : Prop where
  alone : ∀ call, what call = .finish → ¬Idle (state.calls call) → ∀ other, other ≠ call → Idle (state.calls other)
  flushed : ∀ call, what call = .finish → Past (state.calls call) → state.pending.bytes = 0
  announces : ∀ call, state.calls call = .announce → what call = .finish

theorem Past.not_idle {pc : CallPc} (past : Past pc) : ¬Idle pc := by
  rintro (rfl | rfl)
  all_goals
    rcases past with equal | ⟨increment, equal⟩
    all_goals cases equal

private theorem Ending.advance (ending : Ending what state) {call : ι} {pc : CallPc}
    (active : ¬Idle (state.calls call)) (calls : next.calls = Function.update state.calls call pc)
    (announces : pc = .announce → what call = .finish)
    (flushed : what call = .finish → Past pc → next.pending.bytes = 0) : Ending what next where
  alone := by
    rw [calls]
    intro finish ends busy other different
    by_cases same : finish = call
    · subst finish
      rw [Function.update_of_ne different]
      exact ending.alone call ends active other different
    · rw [Function.update_of_ne same] at busy
      exact absurd (ending.alone finish ends busy call fun equal => same equal.symm) active
  flushed := by
    rw [calls]
    intro finish ends past
    by_cases same : finish = call
    · subst finish
      rw [Function.update_self] at past
      exact flushed ends past
    · rw [Function.update_of_ne same] at past
      exact absurd (ending.alone finish ends past.not_idle call fun equal => same equal.symm) active
  announces := by
    rw [calls]
    intro other at_pc
    rcases of_update (fun pc : CallPc => pc = .announce) at_pc with ⟨rfl, here⟩ | ⟨-, there⟩
    · exact announces here
    · exact ending.announces other there

private theorem Ending.move (ending : Ending what state) (allowed : finishAlone what state event)
    (move : Move tx what state event next) : Ending what next := by
  cases move with
  | @invoked call at_pc =>
    obtain ⟨quiet, before⟩ := allowed
    refine ⟨?_, ?_, ?_⟩
    · intro finish ends active other different
      by_cases same : finish = call
      · subst finish
        rw [goto_calls, Function.update_of_ne different]
        exact quiet ends other
      · rw [goto_calls, Function.update_of_ne same] at active
        exact absurd (before finish ends) active
    · intro finish ends past
      rcases of_update Past past with ⟨rfl, here⟩ | ⟨-, there⟩
      · rcases here with equal | ⟨increment, equal⟩
        all_goals cases equal
      · exact ending.flushed finish ends there
    · intro other announcing
      rcases of_update (fun pc : CallPc => pc = .announce) announcing with ⟨-, here⟩ | ⟨-, there⟩
      · cases here
      · exact ending.announces other there
  | told at_pc uncounted =>
    refine ending.advance (busy at_pc nofun nofun) rfl ?_ ?_
    · intro equal
      cases equal
    · rintro - (equal | ⟨increment, equal⟩)
      all_goals cases equal
  | finishing at_pc ends =>
    refine ending.advance (busy at_pc nofun nofun) rfl ?_ ?_
    · intro equal
      cases equal
    · rintro - (equal | ⟨increment, equal⟩)
      all_goals cases equal
  | counted at_pc adds =>
    refine ending.advance (busy at_pc nofun nofun) rfl ?_ ?_
    · intro equal
      split at equal <;> cases equal
    · intro ends
      rw [adds] at ends
      cases ends
  | @nothing call at_pc empty =>
    refine ending.advance (busy at_pc nofun nofun) rfl ?_ ?_
    · intro equal
      cases kind : what call <;> simp [kind, afterFlush] at equal
      rfl
    · exact fun _ _ => empty
  | taken at_pc present =>
    refine ending.advance (busy at_pc nofun nofun) rfl ?_ fun _ _ => rfl
    intro equal
    cases equal
  | @handed call increment bus at_pc =>
    refine ending.advance (busy at_pc nofun nofun) rfl ?_ ?_
    · intro equal
      cases kind : what call <;> simp [kind, afterFlush] at equal
      rfl
    · intro ends _
      exact ending.flushed call ends (.inr ⟨increment, at_pc⟩)
  | announced at_pc =>
    refine ending.advance (busy at_pc nofun nofun) rfl ?_ ?_
    · intro equal
      cases equal
    · rintro - (equal | ⟨increment, equal⟩)
      all_goals cases equal
  | elapsed | moved => exact ⟨ending.alone, ending.flushed, ending.announces⟩

/-- In a run where `finish` is called alone, the increments handed over before the end of
the bar is announced are everything that was counted. -/
theorem finish_reports_everything [Fintype ι] (tx : TxProgress) (what : ι → Call) (now : Nat)
    (events : List (ProgressEvent ι)) (state : ProgressState ι) (call : ι)
    (guarded : Guarded (progressStep tx what) (finishAlone what) (progressStart now) events)
    (executed : run (progressStep tx what) (progressStart now) events = some state)
    (announcing : state.calls call = .announce) (fits : (counted tx what now events).sum ≤ u64Max) :
    (handed tx what now events).sum = (counted tx what now events).sum ∧ state.pending.bytes = 0 := by
  have initial : Ending what (progressStart now) := by
    refine ⟨fun finish _ active => absurd (.inl rfl) active, ?_, nofun⟩
    rintro finish - (equal | ⟨increment, equal⟩)
    all_goals cases equal
  have ending : Ending what state :=
    guarded_invariant (fun _ _ _ ending allowed taken => ending.move allowed (progressStep_move taken)) initial guarded executed
  have ends := ending.announces call announcing
  have past : Past (state.calls call) := .inl announcing
  have empty := ending.flushed call ends past
  have hands : ∑ other, inHand (state.calls other) = 0 := by
    apply Finset.sum_eq_zero
    intro other _
    by_cases same : other = call
    · rw [same, announcing, inHand_announce]
    · rcases ending.alone call ends past.not_idle other same with idle | idle
      all_goals
        rw [idle]
        rfl
  have exactly := (ledger_of_run executed).exact fits
  rw [hands, empty] at exactly
  exact ⟨exactly, empty⟩

/-- The few bytes are sent with the end of the bar. -/
def finished : List (ProgressEvent (Fin 3)) := oneAfterAnother ++ [.invoke 2, .advance 2, .advance 2, .advance 2]

theorem finished_reports_the_rest : ∃ state, run (progressStep smallBar smallCalls) (progressStart 0) finished = some state ∧
    handed smallBar smallCalls 0 finished = [300000, 10] ∧
    (handed smallBar smallCalls 0 finished).sum = (counted smallBar smallCalls 0 finished).sum :=
  ⟨_, rfl, by decide +kernel,
    (finish_reports_everything smallBar smallCalls 0 finished _ 2 (by decide +kernel) rfl rfl (by decide +kernel)).1⟩

/-! ### How often increments are sent -/

/-- One call at a time, as from a single thread. -/
def oneAtATime (state : ProgressState ι) : ProgressEvent ι → Prop
  | .invoke _ => ∀ other, Idle (state.calls other)
  | _ => True

instance [Fintype ι] (state : ProgressState ι) (event : ProgressEvent ι) : Decidable (oneAtATime state event) :=
  match event with
  | .invoke _ => inferInstanceAs (Decidable (∀ _, _))
  | .advance _ | .elapse _ | .bus _ => inferInstanceAs (Decidable True)

/-- A flush by `finish`. -/
def finishFlush (what : ι → Call) (state : ProgressState ι) : ProgressEvent ι → Option ι
  | .advance call => if state.calls call = .flush ∧ what call = .finish then some call else none
  | _ => none

/-- The calls of `finish` that have flushed. -/
def finishes (tx : TxProgress) (what : ι → Call) (now : Nat) (events : List (ProgressEvent ι)) : List ι :=
  collect (progressStep tx what) (finishFlush what) (progressStart now) events

def Alone (state : ProgressState ι) : Prop :=
  ∀ call, ¬Idle (state.calls call) → ∀ other, other ≠ call → Idle (state.calls other)

/-- Why the bar is about to be flushed by an `inc`. -/
def Due (state : ProgressState ι) : Prop :=
  progressFlushBytes ≤ state.pending.bytes ∨ state.pending.lastFlush = none ∨
    ∃ last, state.pending.lastFlush = some last ∧ progressFlushInterval ≤ state.now - last

/-- One for an increment in a caller's hands. -/
def sends : CallPc → Nat
  | .send _ => 1
  | _ => 0

theorem sends_afterFlush (what : Call) : sends (afterFlush what) = 0 := by cases what <;> rfl

/-- One for the first flush. -/
def started : Option Nat → Nat
  | none => 0
  | some _ => 1

/-- Every increment is the first, belongs to a `finish`, is full or comes an interval after
the one before it. -/
structure Throttled [Fintype ι] (what : ι → Call) (now : Nat) (ends : List ι) (handeds : List Nat) (state : ProgressState ι) :
    Prop where
  alone : Alone state
  due : ∀ call, state.calls call = .flush → what call = .finish ∨ Due state
  clock : now ≤ state.now ∧ ∀ last, state.pending.lastFlush = some last → now ≤ last ∧ last ≤ state.now
  budget : ∃ full late, handeds.length + ∑ call, sends (state.calls call) ≤
      started state.pending.lastFlush + ends.length + full + late ∧
    progressFlushBytes * full ≤ handeds.sum + ∑ call, inHand (state.calls call) ∧
    (state.pending.lastFlush = none → late = 0) ∧
    ∀ last, state.pending.lastFlush = some last → now + progressFlushInterval * late ≤ last

section Throttled

variable [Fintype ι] {ends : List ι} {handeds : List Nat}

omit [Fintype ι] in
theorem shouldFlush_cases {pending : PendingIncrement} (due : pending.shouldFlush now = true) :
    progressFlushBytes ≤ pending.bytes ∨ pending.lastFlush = none ∨
      ∃ last, pending.lastFlush = some last ∧ progressFlushInterval ≤ now - last := by
  simp only [PendingIncrement.shouldFlush, Bool.or_eq_true, decide_eq_true_eq] at due
  rcases due with full | late
  · exact .inl full
  · right
    cases flushed : pending.lastFlush with
    | none => exact .inl rfl
    | some last =>
      right
      simp only [flushed, Option.map_some, Option.getD_some, decide_eq_true_eq] at late
      exact ⟨last, rfl, late⟩

omit [Fintype ι] in
theorem Alone.goto (alone : Alone state) {call : ι} {pc : CallPc}
    (allowed : ¬Idle (state.calls call) ∨ ∀ other, Idle (state.calls other))
    (calls : next.calls = Function.update state.calls call pc) : Alone next := by
  have others (other : ι) (different : other ≠ call) : Idle (state.calls other) := by
    rcases allowed with active | idle
    · exact alone call active other different
    · exact idle other
  rw [Alone, calls]
  intro one busy other different
  by_cases same : one = call
  · subst one
    rw [Function.update_of_ne different]
    exact others other different
  · rw [Function.update_of_ne same] at busy
    exact absurd (others one same) busy

omit [Fintype ι] in
theorem Alone.flushing (alone : Alone state) {call other : ι} {pc : CallPc} (active : ¬Idle (state.calls call))
    (flushing : Function.update state.calls call pc other = .flush) : other = call ∧ pc = .flush := by
  rcases of_update (fun pc : CallPc => pc = .flush) flushing with ⟨same, here⟩ | ⟨different, there⟩
  · exact ⟨same, here⟩
  · rcases alone call active other different with idle | idle
    all_goals cases idle.symm.trans there

private theorem Throttled.goto (throttled : Throttled what now ends handeds state) {call : ι} {pc : CallPc}
    (pending : PendingIncrement) (bus : BusState Payload)
    (allowed : ¬Idle (state.calls call) ∨ ∀ other, Idle (state.calls other))
    (before : inHand (state.calls call) = 0 ∧ sends (state.calls call) = 0) (after : inHand pc = 0 ∧ sends pc = 0)
    (flushed : pending.lastFlush = state.pending.lastFlush)
    (due : pc = .flush → what call = .finish ∨ Due { state.goto call pc with pending, bus }) :
    Throttled what now ends handeds { state.goto call pc with pending, bus } where
  alone := throttled.alone.goto allowed rfl
  due := by
    intro other flushing
    rcases of_update (fun pc : CallPc => pc = .flush) flushing with ⟨same, here⟩ | ⟨different, there⟩
    · subst other
      exact due here
    · have flushing := busy there nofun nofun
      rcases allowed with active | idle
      · exact absurd (throttled.alone call active other different) flushing
      · exact absurd (idle other) flushing
  clock := by
    refine ⟨throttled.clock.1, ?_⟩
    simp only [flushed]
    exact throttled.clock.2
  budget := by
    obtain ⟨full, late, count, bytes, early, times⟩ := throttled.budget
    have hands := measure_update inHand state.calls call pc
    have counts := measure_update sends state.calls call pc
    rw [before.1, after.1] at hands
    rw [before.2, after.2] at counts
    refine ⟨full, late, ?_, ?_, ?_, ?_⟩
    · simp only [goto_calls, flushed]
      omega
    · simp only [goto_calls]
      omega
    · simp only [flushed]
      exact early
    · simp only [flushed]
      exact times

private theorem Throttled.hand (throttled : Throttled what now ends handeds state) {call : ι} {pc : CallPc} {increment : Nat}
    (bus : BusState Payload) (at_pc : state.calls call = .send increment) (after : inHand pc = 0 ∧ sends pc = 0)
    (leaves : pc ≠ .flush) : Throttled what now ends (handeds ++ [increment]) { state.goto call pc with bus } where
  alone := throttled.alone.goto (.inl (busy at_pc nofun nofun)) rfl
  due := by
    intro other flushing
    have active := busy at_pc nofun nofun
    exact absurd (throttled.alone.flushing active flushing).2 leaves
  clock := throttled.clock
  budget := by
    obtain ⟨full, late, count, bytes, early, times⟩ := throttled.budget
    have hands := measure_update inHand state.calls call pc
    have counts := measure_update sends state.calls call pc
    rw [at_pc, inHand_send, after.1] at hands
    rw [at_pc, after.2] at counts
    have one : sends (.send increment) = 1 := rfl
    rw [one] at counts
    refine ⟨full, late, ?_, ?_, early, times⟩
    · simp only [goto_calls, goto_pending, List.length_append, List.length_singleton]
      omega
    · simp only [goto_calls, List.sum_append, List.sum_singleton]
      omega

private theorem Throttled.take (throttled : Throttled what now ends handeds state) {call : ι}
    (at_pc : state.calls call = .flush) :
    Throttled what now (if what call = .finish then ends ++ [call] else ends) handeds
      ({ state with pending := ⟨0, some state.now⟩ }.goto call (.send state.pending.bytes)) where
  alone := throttled.alone.goto (.inl (busy at_pc nofun nofun)) rfl
  due := by
    intro other flushing
    have active := busy at_pc nofun nofun
    cases (throttled.alone.flushing active flushing).2
  clock := by
    refine ⟨throttled.clock.1, ?_⟩
    intro last equal
    cases equal
    exact ⟨throttled.clock.1, Nat.le_refl _⟩
  budget := by
    obtain ⟨full, late, count, bytes, early, times⟩ := throttled.budget
    have hands := measure_update inHand state.calls call (.send state.pending.bytes)
    have counts := measure_update sends state.calls call (.send state.pending.bytes)
    have one : sends (.send state.pending.bytes) = 1 := rfl
    have none : sends .flush = 0 := rfl
    rw [at_pc, inHand_flush, inHand_send] at hands
    rw [at_pc, none, one] at counts
    have begun : started state.pending.lastFlush ≤ 1 := by cases state.pending.lastFlush <;> simp [started]
    have since : now + progressFlushInterval * late ≤ state.now := by
      cases flushed : state.pending.lastFlush with
      | none =>
        rw [early flushed]
        exact throttled.clock.1
      | some last => exact Nat.le_trans (times last flushed) (throttled.clock.2 last flushed).2
    have latest : ∀ last, some state.now = some last → now + progressFlushInterval * late ≤ last := by
      intro last equal
      cases equal
      exact since
    by_cases ending : what call = .finish
    · refine ⟨full, late, ?_, ?_, nofun, latest⟩
      · simp only [goto_calls, goto_pending, if_pos ending, List.length_append, List.length_singleton, started]
        omega
      · simp only [goto_calls]
        omega
    · have due := (throttled.due call at_pc).resolve_left ending
      rcases due with enough | first | ⟨last, flushed, passed⟩
      · refine ⟨full + 1, late, ?_, ?_, nofun, latest⟩
        · simp only [goto_calls, goto_pending, if_neg ending, started]
          omega
        · simp only [goto_calls, Nat.mul_add, Nat.mul_one]
          omega
      · refine ⟨full, late, ?_, ?_, nofun, latest⟩
        · rw [first, started] at count
          simp only [goto_calls, goto_pending, if_neg ending, started]
          omega
        · simp only [goto_calls]
          omega
      · refine ⟨full, late + 1, ?_, ?_, nofun, ?_⟩
        · simp only [goto_calls, goto_pending, if_neg ending, started]
          omega
        · simp only [goto_calls]
          omega
        · intro other equal
          cases equal
          have before := times last flushed
          have clock := (throttled.clock.2 last flushed).2
          rw [Nat.mul_add, Nat.mul_one]
          have positive : 0 < progressFlushInterval := by decide
          omega

omit [DecidableEq ι] in
private theorem Throttled.more (throttled : Throttled what now ends handeds state) (others : List ι) :
    Throttled what now (ends ++ others) handeds state where
  alone := throttled.alone
  due := throttled.due
  clock := throttled.clock
  budget := by
    obtain ⟨full, late, count, bytes, early, times⟩ := throttled.budget
    refine ⟨full, late, ?_, bytes, early, times⟩
    rw [List.length_append]
    omega

private theorem Throttled.move (throttled : Throttled what now ends handeds state) (allowed : oneAtATime state event)
    (move : Move tx what state event next) :
    Throttled what now (ends ++ (finishFlush what state event).toList) (handeds ++ (handedBy state event).toList) next := by
  cases move with
  | @invoked call at_pc =>
    have kept : Throttled what now ends handeds (state.goto call .called) :=
      throttled.goto state.pending state.bus (.inr allowed) (by rw [at_pc]; exact ⟨rfl, rfl⟩) ⟨rfl, rfl⟩ rfl (by simp)
    simpa [finishFlush, handedBy] using kept
  | @told call bus at_pc uncounted =>
    have kept : Throttled what now ends handeds { state.goto call .returned with bus } :=
      throttled.goto state.pending bus (.inl (busy at_pc (by simp) (by simp))) (by rw [at_pc]; exact ⟨rfl, rfl⟩) ⟨rfl, rfl⟩ rfl (by simp)
    simpa [finishFlush, handedBy, at_pc] using kept
  | @finishing call at_pc finishes =>
    have kept : Throttled what now ends handeds (state.goto call .flush) :=
      throttled.goto state.pending state.bus (.inl (busy at_pc (by simp) (by simp))) (by rw [at_pc]; exact ⟨rfl, rfl⟩) ⟨rfl, rfl⟩ rfl
        fun _ => .inl finishes
    simpa [finishFlush, handedBy, at_pc] using kept
  | @counted call inc at_pc adds =>
    have kept : Throttled what now ends handeds ({ state with pending := state.pending.add inc }.goto call
        (if (state.pending.add inc).shouldFlush state.now then .flush else .returned)) := by
      refine throttled.goto (state.pending.add inc) state.bus (.inl (busy at_pc (by simp) (by simp)))
        (by rw [at_pc]; exact ⟨rfl, rfl⟩) ?_ rfl ?_
      · split <;> exact ⟨rfl, rfl⟩
      · intro flushing
        split at flushing
        next due => exact .inr (shouldFlush_cases due)
        next => cases flushing
    simpa [finishFlush, handedBy, at_pc] using kept
  | @nothing call at_pc empty =>
    have kept : Throttled what now ends handeds (state.goto call (afterFlush (what call))) := by
      refine throttled.goto state.pending state.bus (.inl (busy at_pc (by simp) (by simp))) (by rw [at_pc]; exact ⟨rfl, rfl⟩)
        ⟨inHand_afterFlush _, sends_afterFlush _⟩ rfl ?_
      intro flushing
      cases kind : what call <;> simp [kind, afterFlush] at flushing
    simpa [handedBy, at_pc] using kept.more _
  | @taken call at_pc present =>
    have kept := throttled.take at_pc
    by_cases finishes : what call = .finish
    · simpa [finishFlush, handedBy, at_pc, finishes] using kept
    · simpa [finishFlush, handedBy, at_pc, finishes] using kept
  | @handed call increment bus at_pc =>
    have kept : Throttled what now ends (handeds ++ [increment]) { state.goto call (afterFlush (what call)) with bus } := by
      apply throttled.hand bus at_pc ⟨inHand_afterFlush _, sends_afterFlush _⟩
      cases what call <;> simp [afterFlush]
    simpa [finishFlush, handedBy, at_pc] using kept
  | @announced call bus at_pc =>
    have kept : Throttled what now ends handeds { state.goto call .returned with bus } :=
      throttled.goto state.pending bus (.inl (busy at_pc (by simp) (by simp))) (by rw [at_pc]; exact ⟨rfl, rfl⟩) ⟨rfl, rfl⟩ rfl (by simp)
    simpa [finishFlush, handedBy, at_pc] using kept
  | elapsed time =>
    simp only [finishFlush, handedBy, Option.toList_none, List.append_nil]
    refine ⟨throttled.alone, ?_, ?_, throttled.budget⟩
    · intro call flushing
      rcases throttled.due call flushing with ending | full | first | ⟨last, flushed, passed⟩
      · exact .inl ending
      · exact .inr (.inl full)
      · exact .inr (.inr (.inl first))
      · exact .inr (.inr (.inr ⟨last, flushed, by dsimp only; omega⟩))
    · refine ⟨Nat.le_add_right_of_le throttled.clock.1, ?_⟩
      intro last flushed
      have clock := throttled.clock.2 last flushed
      exact ⟨clock.1, Nat.le_add_right_of_le clock.2⟩
  | moved =>
    simp only [finishFlush, handedBy, Option.toList_none, List.append_nil]
    exact ⟨throttled.alone, throttled.due, throttled.clock, throttled.budget⟩

end Throttled

/-- From a single thread, the number of increments is at most one for the first bytes, one
for each `finish`, one for every 256 KiB counted and one for every 50 ms passed. -/
theorem increments_are_throttled [Fintype ι] (tx : TxProgress) (what : ι → Call) (now : Nat)
    (events : List (ProgressEvent ι)) (final : ProgressState ι)
    (guarded : Guarded (progressStep tx what) oneAtATime (progressStart now) events)
    (executed : run (progressStep tx what) (progressStart now) events = some final) :
    (handed tx what now events).length ≤ 1 + (finishes tx what now events).length +
      (counted tx what now events).sum / progressFlushBytes + (final.now - now) / progressFlushInterval := by
  have throttled : Throttled what now (finishes tx what now events) (handed tx what now events) final := by
    apply guarded_history
      (fun events state => Throttled what now (finishes tx what now events) (handed tx what now events) state) _ _ guarded executed
    · refine ⟨fun call active => absurd (.inl rfl) active, nofun, ⟨Nat.le_refl _, nofun⟩, 0, 0, ?_, ?_, fun _ => rfl, nofun⟩
      · simp [handed, finishes, collect, progressStart, sends, started]
      · simp
    · intro before middle event next reached kept allowed taken
      have later := kept.move allowed (progressStep_move taken)
      unfold finishes handed at later ⊢
      rw [collect_concat reached taken, collect_concat reached taken]
      exact later
  obtain ⟨full, late, count, bytes, early, times⟩ := throttled.budget
  have bound := (ledger_of_run executed).atMost
  have fulls : full ≤ (counted tx what now events).sum / progressFlushBytes := by
    rw [Nat.le_div_iff_mul_le (by decide), Nat.mul_comm]
    omega
  have lates : late ≤ (final.now - now) / progressFlushInterval := by
    rw [Nat.le_div_iff_mul_le (by decide), Nat.mul_comm]
    cases flushed : final.pending.lastFlush with
    | none => simp [early flushed]
    | some last =>
      have before := times last flushed
      have clock := (throttled.clock.2 last flushed).2
      omega
  have begun : started final.pending.lastFlush ≤ 1 := by cases final.pending.lastFlush <;> simp [started]
  omega

theorem finished_is_throttled : ∃ final, run (progressStep smallBar smallCalls) (progressStart 0) finished = some final ∧
    (handed smallBar smallCalls 0 finished).length = 2 ∧
    (handed smallBar smallCalls 0 finished).length ≤ 1 + (finishes smallBar smallCalls 0 finished).length +
      (counted smallBar smallCalls 0 finished).sum / progressFlushBytes + (final.now - 0) / progressFlushInterval :=
  ⟨_, rfl, by decide +kernel, increments_are_throttled smallBar smallCalls 0 finished _ (by decide +kernel) rfl⟩

end Vaulton.Proofs.Progress
