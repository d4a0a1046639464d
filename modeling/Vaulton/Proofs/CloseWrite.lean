import Vaulton.CloseWrite
import Vaulton.Lib.Machine

/-! What a CloseWrite ends. The mutex orders the changes and the flush, and the flag,
which is set before the close asks for the mutex, stops everyone who gets it later. -/

namespace Vaulton.Proofs.CloseWrite
open Vaulton.Config Vaulton.Lib Vaulton.CloseWrite

variable {ω κ : Type} {state next final : HandleState ω κ}
  {handle : ActiveWriteHandle} {calls : ω → Request}

/-! ### The invariant -/

def requestInside : RequestPc → Bool
  | .lastCheck | .act | .release _ => true
  | .fetch | .firstCheck | .lock | .returned _ => false

def closeInside : ClosePc → Bool
  | .flush | .release _ => true
  | .remove | .expire | .lock | .refused | .returned _ => false

/-- The close has taken the handle out of the map. -/
def took : ClosePc → Bool
  | .expire | .lock | .flush | .release _ | .returned _ => true
  | .remove | .refused => false

def expiring : ClosePc → Bool
  | .lock | .flush | .release _ | .returned _ => true
  | .remove | .expire | .refused => false

/-- The close has had the mutex. -/
def hadLock : ClosePc → Bool
  | .flush | .release _ | .returned _ => true
  | .remove | .expire | .lock | .refused => false

theorem hadLock_expiring {pc : ClosePc} (locked : hadLock pc = true) : expiring pc = true := by
  cases pc <;> first | rfl | cases locked

/-- Only one call is between its lock and its release, only one close has taken the
handle, and from the moment it has the mutex no request is about to change the file. -/
structure Orderly (state : HandleState ω κ) : Prop where
  requests : ∀ id, requestInside (state.requests id) = true → state.holder = some (.inl id)
  closes : ∀ id, closeInside (state.closes id) = true → state.holder = some (.inr id)
  taken : ∀ id, took (state.closes id) = true → state.mapped = false
  sole : ∀ id other, took (state.closes id) = true → took (state.closes other) = true → id = other
  expired : ∀ id, expiring (state.closes id) = true → state.expired = true
  stopped : ∀ id, hadLock (state.closes id) = true → ∀ call, state.requests call ≠ .act

theorem Orderly.initial (file : WriteState) : Orderly (handleStart file : HandleState ω κ) := by
  constructor <;> simp [handleStart, requestInside, closeInside, took, expiring, hadLock]

/-- A request moves: it is inside only as the holder, and it gets to the change only
while the handle is not expired. -/
theorem Orderly.request_moves [DecidableEq ω] (orderly : Orderly state) {id : ω} {pc : RequestPc} {holder : Option (ω ⊕ κ)} {file : WriteState}
    (own : requestInside pc = true → holder = some (.inl id))
    (others : ∀ other, other ≠ .inl id → state.holder = some other → holder = some other)
    (live : pc = .act → state.expired = false) :
    Orderly { state.request id pc with holder := holder, state := file } := by
  refine ⟨?_, ?_, orderly.taken, orderly.sole, orderly.expired, ?_⟩
  · intro other inside
    rcases of_update (fun pc => requestInside pc = true) inside with ⟨rfl, here⟩ | ⟨different, there⟩
    · exact own here
    · exact others _ (by simpa using different) (orderly.requests other there)
  · intro other inside
    exact others _ (by simp) (orderly.closes other inside)
  · intro other closed call changing
    rcases of_update (fun pc => pc = RequestPc.act) changing with ⟨rfl, here⟩ | ⟨-, there⟩
    · have expired := orderly.expired other (hadLock_expiring closed)
      rw [live here] at expired
      cases expired
    · exact orderly.stopped other closed call there

/-- A close moves: it takes the handle only out of the map, it asks for the mutex with the
flag set, and it gets the mutex only while nobody holds it. -/
theorem Orderly.close_moves [DecidableEq κ] (orderly : Orderly state) {id : κ} {pc : ClosePc} {holder : Option (ω ⊕ κ)} {mapped expired : Bool}
    (own : closeInside pc = true → holder = some (.inr id))
    (others : ∀ other, other ≠ .inr id → state.holder = some other → holder = some other)
    (takes : took pc = true → mapped = false ∧ (took (state.closes id) = true ∨ state.mapped = true))
    (unmapped : state.mapped = false → mapped = false)
    (flagged : expiring pc = true → expired = true) (kept : state.expired = true → expired = true)
    (locked : hadLock pc = true → hadLock (state.closes id) = true ∨ state.holder = none) :
    Orderly { state.close id pc with holder := holder, mapped := mapped, expired := expired } := by
  have first : ∀ other, other ≠ id → took pc = true → took (state.closes other) = true → False := by
    intro other different here there
    rcases (takes here).2 with already | present
    · exact different (orderly.sole other id there already)
    · rw [orderly.taken other there] at present
      cases present
  refine ⟨?_, ?_, ?_, ?_, ?_, ?_⟩
  · intro other inside
    exact others _ (by simp) (orderly.requests other inside)
  · intro other inside
    rcases of_update (fun pc => closeInside pc = true) inside with ⟨rfl, here⟩ | ⟨different, there⟩
    · exact own here
    · exact others _ (by simpa using different) (orderly.closes other there)
  · intro other has
    rcases of_update (fun pc => took pc = true) has with ⟨-, here⟩ | ⟨-, there⟩
    · exact (takes here).1
    · exact unmapped (orderly.taken other there)
  · intro left right leftHas rightHas
    rcases of_update (fun pc => took pc = true) leftHas with ⟨rfl, here⟩ | ⟨different, there⟩
    · rcases of_update (fun pc => took pc = true) rightHas with ⟨rfl, -⟩ | ⟨other, has⟩
      · rfl
      · exact (first right other here has).elim
    · rcases of_update (fun pc => took pc = true) rightHas with ⟨rfl, here⟩ | ⟨-, has⟩
      · exact (first left different here there).elim
      · exact orderly.sole left right there has
  · intro other has
    rcases of_update (fun pc => expiring pc = true) has with ⟨-, here⟩ | ⟨-, there⟩
    · exact flagged here
    · exact kept (orderly.expired other there)
  · intro other has call changing
    rcases of_update (fun pc => hadLock pc = true) has with ⟨rfl, here⟩ | ⟨-, there⟩
    · rcases locked here with before | free
      · exact orderly.stopped other before call changing
      · have holds := orderly.requests call (by rw [show state.requests call = .act from changing]; rfl)
        rw [free] at holds
        cases holds
    · exact orderly.stopped other there call changing

theorem Orderly.request_releases [DecidableEq ω] (orderly : Orderly state) {id : ω} {result : Except Status Unit}
    (holds : state.requests id = .release result) :
    Orderly { state.request id (.returned result) with holder := none } := by
  have mine := orderly.requests id (by rw [holds]; rfl)
  apply orderly.request_moves
  · intro inside
    cases inside
  · intro other different held
    rw [mine] at held
    exact (different (Option.some.inj held).symm).elim
  · intro changing
    cases changing

theorem Orderly.request_step [DecidableEq ω] (orderly : Orderly state) {id : ω} {io : Io} {call : Request}
    (taken : requestStep handle call state id io (state.requests id) = some next) : Orderly next := by
  cases pc : state.requests id with
  | fetch =>
    rw [pc] at taken
    simp only [requestStep] at taken
    repeat' split at taken
    all_goals
      cases taken
      exact orderly.request_moves (by simp [requestInside]) (fun _ _ held => held) (by simp)
  | firstCheck =>
    rw [pc] at taken
    simp only [requestStep] at taken
    split at taken
    all_goals
      cases taken
      exact orderly.request_moves (by simp [requestInside]) (fun _ _ held => held) (by simp)
  | lock =>
    rw [pc] at taken
    simp only [requestStep] at taken
    split at taken
    next free =>
      cases taken
      exact orderly.request_moves (fun _ => rfl) (by simp [free]) (by simp)
    next => cases taken
  | lastCheck =>
    have mine := orderly.requests id (by rw [pc]; rfl)
    rw [pc] at taken
    simp only [requestStep] at taken
    split at taken
    next =>
      cases taken
      exact orderly.request_moves (fun _ => mine) (fun _ _ held => held) (by simp)
    next live =>
      cases taken
      exact orderly.request_moves (fun _ => mine) (fun _ _ held => held) (fun _ => by simpa using live)
  | act =>
    have mine := orderly.requests id (by rw [pc]; rfl)
    rw [pc] at taken
    cases taken
    exact orderly.request_moves (fun _ => mine) (fun _ _ held => held) (by simp)
  | release result =>
    rw [pc] at taken
    cases taken
    exact orderly.request_releases pc
  | returned result =>
    rw [pc] at taken
    cases taken

theorem Orderly.close_step [DecidableEq κ] (orderly : Orderly state) {id : κ} {fails : Option Status}
    (taken : closeStep state id fails (state.closes id) = some next) : Orderly next := by
  cases pc : state.closes id with
  | remove =>
    rw [pc] at taken
    simp only [closeStep] at taken
    split at taken
    next present =>
      cases taken
      exact orderly.close_moves (by simp [closeInside]) (fun _ _ held => held) (fun _ => ⟨rfl, .inr present⟩)
        (fun _ => rfl) (by simp [expiring]) (fun flag => flag) (by simp [hadLock])
    next =>
      cases taken
      exact orderly.close_moves (by simp [closeInside]) (fun _ _ held => held) (by simp [took])
        (fun gone => gone) (by simp [expiring]) (fun flag => flag) (by simp [hadLock])
  | expire =>
    have has : took (state.closes id) = true := by rw [pc]; rfl
    rw [pc] at taken
    cases taken
    exact orderly.close_moves (by simp [closeInside]) (fun _ _ held => held) (fun _ => ⟨orderly.taken id has, .inl has⟩)
      (fun gone => gone) (fun _ => rfl) (fun _ => rfl) (by simp [hadLock])
  | lock =>
    have has : took (state.closes id) = true := by rw [pc]; rfl
    have flag := orderly.expired id (by rw [pc]; rfl)
    rw [pc] at taken
    simp only [closeStep] at taken
    split at taken
    next free =>
      cases taken
      exact orderly.close_moves (fun _ => rfl) (by simp [free]) (fun _ => ⟨orderly.taken id has, .inl has⟩)
        (fun gone => gone) (fun _ => flag) (fun flag => flag) (fun _ => .inr free)
    next => cases taken
  | flush =>
    have has : took (state.closes id) = true := by rw [pc]; rfl
    have flag := orderly.expired id (by rw [pc]; rfl)
    have mine := orderly.closes id (by rw [pc]; rfl)
    have locked : hadLock (state.closes id) = true := by rw [pc]; rfl
    rw [pc] at taken
    simp only [closeStep] at taken
    split at taken
    all_goals
      cases taken
      exact orderly.close_moves (fun _ => mine) (fun _ _ held => held) (fun _ => ⟨orderly.taken id has, .inl has⟩)
        (fun gone => gone) (fun _ => flag) (fun flag => flag) (fun _ => .inl locked)
  | release result =>
    have has : took (state.closes id) = true := by rw [pc]; rfl
    have flag := orderly.expired id (by rw [pc]; rfl)
    have mine := orderly.closes id (by rw [pc]; rfl)
    have locked : hadLock (state.closes id) = true := by rw [pc]; rfl
    rw [pc] at taken
    cases taken
    refine orderly.close_moves (by simp [closeInside]) ?_ (fun _ => ⟨orderly.taken id has, .inl has⟩)
      (fun gone => gone) (fun _ => flag) (fun flag => flag) (fun _ => .inl locked)
    intro other different held
    rw [mine] at held
    exact (different (Option.some.inj held).symm).elim
  | refused | returned result =>
    rw [pc] at taken
    cases taken

variable [DecidableEq ω] [DecidableEq κ]

theorem Orderly.step (orderly : Orderly state) {event : HandleEvent ω κ}
    (taken : handleStep handle calls state event = some next) : Orderly next := by
  cases event with
  | request id io => exact orderly.request_step taken
  | close id fails => exact orderly.close_step taken

theorem orderly_of_run {file : WriteState} {events : List (HandleEvent ω κ)}
    (executed : run (handleStep handle calls) (handleStart file) events = some final) : Orderly final :=
  run_invariant Orderly (fun _ _ _ orderly taken => orderly.step taken) (Orderly.initial file) executed

/-! ### What changes the file -/

/-- The request has changed the file and is going to answer Ok, or has answered it. -/
def Succeeded (pc : RequestPc) : Prop := pc = .release (.ok ()) ∨ pc = .returned (.ok ())

omit [DecidableEq κ] in
theorem request_quiet {id : ω} {io : Io} {call : Request} {pc : RequestPc} (idle : pc ≠ .act)
    (taken : requestStep handle call state id io pc = some next) :
    ∃ later holder, next = { state.request id later with holder := holder } ∧ (Succeeded later → Succeeded pc) := by
  cases pc with
  | fetch | firstCheck | lastCheck | lock =>
    simp only [requestStep] at taken
    repeat' split at taken
    all_goals
      cases taken
      try exact ⟨_, _, rfl, by simp [Succeeded]⟩
  | act => exact (idle rfl).elim
  | release result =>
    cases taken
    exact ⟨_, _, rfl, by simp [Succeeded]⟩
  | returned result => cases taken

omit [DecidableEq ω] in
theorem close_frame {id : κ} {fails : Option Status} {pc : ClosePc} (taken : closeStep state id fails pc = some next) :
    next.state = state.state ∧ next.requests = state.requests := by
  cases pc with
  | remove | lock | flush =>
    simp only [closeStep] at taken
    split at taken
    all_goals
      cases taken
      try exact ⟨rfl, rfl⟩
  | expire | release result =>
    cases taken
    exact ⟨rfl, rfl⟩
  | refused | returned result => cases taken

omit [DecidableEq ω] in
theorem close_elsewhere {id other : κ} {fails : Option Status} {pc : ClosePc} (different : other ≠ id)
    (taken : closeStep state id fails pc = some next) : next.closes other = state.closes other := by
  cases pc with
  | remove | lock | flush =>
    simp only [closeStep] at taken
    split at taken
    all_goals
      cases taken
      try exact Function.update_of_ne different _ _
  | expire | release result =>
    cases taken
    exact Function.update_of_ne different _ _
  | refused | returned result => cases taken

/-- What the acting step of a request does. -/
def Acts (handle : ActiveWriteHandle) (calls : ω → Request) (id : ω) (io : Io) (state next : HandleState ω κ) : Prop :=
  state.requests id = .act ∧ (act handle (calls id) io state.state).2 = next.state ∧
  next.requests = Function.update state.requests id (.release (act handle (calls id) io state.state).1)

/-- The file changes, and a request succeeds, only in the step that acts. -/
theorem step_frame {event : HandleEvent ω κ} (taken : handleStep handle calls state event = some next) :
    (∃ id io, event = .request id io ∧ Acts handle calls id io state next) ∨
    next.state = state.state ∧ ∀ id, Succeeded (next.requests id) → Succeeded (state.requests id) := by
  cases event with
  | request id io =>
    by_cases pc : state.requests id = .act
    · left
      simp only [handleStep, pc, requestStep] at taken
      cases taken
      exact ⟨id, io, rfl, pc, rfl, rfl⟩
    · right
      obtain ⟨later, holder, rfl, kept⟩ := request_quiet pc taken
      refine ⟨rfl, ?_⟩
      intro other succeeded
      rcases of_update Succeeded succeeded with ⟨rfl, here⟩ | ⟨-, there⟩
      · exact kept here
      · exact there
  | close id fails =>
    right
    obtain ⟨same, unmoved⟩ := close_frame taken
    refine ⟨same, ?_⟩
    intro other succeeded
    rwa [unmoved] at succeeded

/-- The change of the file that `id` answered with Ok. -/
def Changed (handle : ActiveWriteHandle) (calls : ω → Request) (id : ω) (io : Io) (state next : HandleState ω κ) : Prop :=
  Acts handle calls id io state next ∧ (act handle (calls id) io state.state).1 = .ok ()

theorem changed_of_succeeded {file : WriteState} {events : List (HandleEvent ω κ)}
    (executed : run (handleStep handle calls) (handleStart file) events = some final) (id : ω)
    (succeeded : Succeeded (final.requests id)) :
    ∃ state io next, Occurs (handleStep handle calls) (handleStart file) events state (.request id io) next ∧
      Changed handle calls id io state next := by
  refine run_history (fun events final => Succeeded (final.requests id) → ∃ state io next,
    Occurs (handleStep handle calls) (handleStart file) events state (.request id io) next ∧
      Changed handle calls id io state next) ?_ ?_ executed succeeded
  · intro succeeded
    simp [handleStart, Succeeded] at succeeded
  · intro before middle event last reached earlier taken succeeded
    have later : Succeeded (middle.requests id) → ∃ state io next,
        Occurs (handleStep handle calls) (handleStart file) (before ++ [event]) state (.request id io) next ∧
          Changed handle calls id io state next := by
      intro already
      obtain ⟨state, io, next, occurs, changed⟩ := earlier already
      exact ⟨state, io, next, occurs.concat, changed⟩
    rcases step_frame taken with ⟨other, io, rfl, at_pc, same, moved⟩ | ⟨-, kept⟩
    · rw [moved] at succeeded
      rcases of_update Succeeded succeeded with ⟨rfl, here⟩ | ⟨-, there⟩
      · refine ⟨middle, io, last, Occurs.last reached taken, ⟨at_pc, same, moved⟩, ?_⟩
        simpa [Succeeded] using here
      · exact later there
    · exact later (kept id succeeded)

/-! ### After the close has had the mutex -/

/-- A close that has had the mutex goes on to its release and its answer. -/
theorem locked_step {event : HandleEvent ω κ} {closer : κ} (locked : hadLock (state.closes closer) = true)
    (taken : handleStep handle calls state event = some next) : hadLock (next.closes closer) = true := by
  cases event with
  | request id io =>
    by_cases pc : state.requests id = .act
    · simp only [handleStep, pc, requestStep] at taken
      cases taken
      exact locked
    · obtain ⟨later, holder, rfl, -⟩ := request_quiet pc taken
      exact locked
  | close id fails =>
    by_cases same : closer = id
    · subst same
      simp only [handleStep] at taken
      cases pc : state.closes closer with
      | remove | expire | lock | refused =>
        rw [pc] at locked
        cases locked
      | flush =>
        rw [pc] at taken
        cases fails <;> cases taken <;> simp [HandleState.close, hadLock]
      | release result =>
        rw [pc] at taken
        cases taken
        simp [HandleState.close, hadLock]
      | returned result =>
        rw [pc] at taken
        cases taken
    · rwa [close_elsewhere same taken]

/-- Nothing changes the file any more, and nobody succeeds who has not before. -/
theorem quiet_after {middle : HandleState ω κ} {after : List (HandleEvent ω κ)} {closer : κ} (orderly : Orderly middle)
    (locked : hadLock (middle.closes closer) = true)
    (executed : run (handleStep handle calls) middle after = some final) :
    final.state = middle.state ∧ (∀ id, final.requests id ≠ .act) ∧
    ∀ id, Succeeded (final.requests id) → Succeeded (middle.requests id) := by
  have invariant : Orderly final ∧ hadLock (final.closes closer) = true ∧ final.state = middle.state ∧
      ∀ id, Succeeded (final.requests id) → Succeeded (middle.requests id) := by
    refine run_invariant (fun state => Orderly state ∧ hadLock (state.closes closer) = true ∧ state.state = middle.state ∧
      ∀ id, Succeeded (state.requests id) → Succeeded (middle.requests id)) ?_
      ⟨orderly, locked, rfl, fun _ succeeded => succeeded⟩ executed
    intro state event next ⟨orderly, locked, same, kept⟩ taken
    refine ⟨orderly.step taken, locked_step locked taken, ?_⟩
    rcases step_frame taken with ⟨id, io, rfl, changing, -⟩ | ⟨unmoved, earlier⟩
    · exact (orderly.stopped closer locked id changing).elim
    · exact ⟨unmoved.trans same, fun id succeeded => kept id (earlier id succeeded)⟩
  obtain ⟨orderly, locked, same, kept⟩ := invariant
  exact ⟨same, orderly.stopped closer locked, kept⟩

def IsNotFound (result : Except Status Unit) : Prop := ∃ message, result = .error ⟨.notFound, message⟩

theorem took_of_answer {pc : ClosePc} {result : Except Status Unit} (answered : pc.answer = some result)
    (found : ¬IsNotFound result) : took pc = true := by
  cases pc with
  | refused =>
    cases answered
    exact (found ⟨_, rfl⟩).elim
  | returned result => rfl
  | remove | expire | lock | flush | release _ => cases answered

/-- A duplicate CloseWrite answers at once, while a request that holds the handle may
still go on to change the file. -/
theorem refused_close_ends_nothing : ∃ (before after : List (HandleEvent Unit Bool)) (middle final : HandleState Unit Bool),
    run (handleStep ⟨none, 0, false⟩ fun _ => .writeAt 0 [7]) (handleStart ⟨[], 0⟩) before = some middle ∧
    (middle.closes true).answer = some (.error unknownHandle) ∧
    run (handleStep ⟨none, 0, false⟩ fun _ => .writeAt 0 [7]) middle after = some final ∧
    middle.state.file = [] ∧ final.state.file = [7] ∧ final.requests () = .returned (.ok ()) :=
  ⟨[.request () .done, .close false none, .close true none],
    [.request () .done, .request () .done, .request () .done, .request () .done, .request () .done],
    _, _, rfl, rfl, rfl, rfl, rfl, rfl⟩

/-- Once a CloseWrite that had found the handle has returned, nobody changes the file or is
about to; whoever answers Ok changed the file before the close flushed it; and at most one
CloseWrite does not answer NotFound. -/
theorem close_ends_the_handle (handle : ActiveWriteHandle) (calls : ω → Request) (file : WriteState)
    (events : List (HandleEvent ω κ)) (final : HandleState ω κ)
    (executed : run (handleStep handle calls) (handleStart file) events = some final) :
    (∀ before after middle closer result, events = before ++ after →
      run (handleStep handle calls) (handleStart file) before = some middle → middle.closes closer = .returned result →
      final.state = middle.state ∧ ∀ id, final.requests id ≠ .act) ∧
    (∀ before after middle closer fails, events = before ++ .close closer fails :: after →
      run (handleStep handle calls) (handleStart file) before = some middle → middle.closes closer = .flush →
      ∀ id, final.requests id = .returned (.ok ()) → ∃ state io next,
        Occurs (handleStep handle calls) (handleStart file) before state (.request id io) next ∧
          Changed handle calls id io state next) ∧
    ∀ first second left right, (final.closes first).answer = some left → (final.closes second).answer = some right →
      ¬IsNotFound left → ¬IsNotFound right → first = second := by
  have split : ∀ before after middle, events = before ++ after →
      run (handleStep handle calls) (handleStart file) before = some middle →
      run (handleStep handle calls) middle after = some final := by
    rintro before after middle rfl reached
    obtain ⟨other, same, later⟩ := run_append.mp executed
    cases reached.symm.trans same
    exact later
  refine ⟨?_, ?_, ?_⟩
  · intro before after middle closer result whole reached returned
    have locked : hadLock (middle.closes closer) = true := by rw [returned]; rfl
    obtain ⟨same, idle, -⟩ := quiet_after (orderly_of_run reached) locked (split before after middle whole reached)
    exact ⟨same, idle⟩
  · intro before after middle closer fails whole reached flushing id answered
    have locked : hadLock (middle.closes closer) = true := by rw [flushing]; rfl
    obtain ⟨-, -, kept⟩ := quiet_after (orderly_of_run reached) locked (split before _ middle whole reached)
    exact changed_of_succeeded reached id (kept id (.inr answered))
  · intro first second left right answered answers found founds
    exact (orderly_of_run executed).sole first second (took_of_answer answered found) (took_of_answer answers founds)

/-- A write and a close: the handle is removed while the write holds it. -/
def closedRun : List (HandleEvent Unit Unit) :=
  [.request () .done, .request () .done, .close () none, .request () .done, .request () .done, .close () none,
    .request () .done, .request () .done, .close () none]

theorem closed_run_keeps_the_write : ∃ middle final,
    run (handleStep ⟨none, 0, false⟩ fun _ => .writeAt 0 [7]) (handleStart ⟨[], 0⟩) closedRun = some middle ∧
    run (handleStep ⟨none, 0, false⟩ fun _ => .writeAt 0 [7]) (handleStart ⟨[], 0⟩)
      (closedRun ++ [.close () none, .close () none]) = some final ∧ final.state.file = [7] ∧
    ∃ state io next, Occurs (handleStep ⟨none, 0, false⟩ fun _ => .writeAt 0 [7]) (handleStart ⟨[], 0⟩) closedRun state
      (.request () io) next ∧ Changed ⟨none, 0, false⟩ (fun _ => .writeAt 0 [7]) () io state next := by
  refine ⟨_, _, rfl, rfl, rfl, ?_⟩
  have flushed := (close_ends_the_handle ⟨none, 0, false⟩ (fun _ => .writeAt 0 [7]) ⟨[], 0⟩
    (closedRun ++ [HandleEvent.close () none, .close () none]) _ rfl).2.1
  exact flushed closedRun [.close () none] _ () none rfl rfl rfl () rfl

end Vaulton.Proofs.CloseWrite
