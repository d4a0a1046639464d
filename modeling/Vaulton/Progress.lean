import Vaulton.Config
import Vaulton.EventBus
import Vaulton.Quota

/-! Progress bars (`ipc/src/progress.rs`). The threads of a job share one `TxProgress`.
`inc` and `flush_increment` take its lock one after the other, so a call is cut between
the two and before every event it sends. -/

namespace Vaulton.Progress
open Vaulton.Config Vaulton.EventBus Vaulton.Quota

/-- `PROGRESS_FLUSH_INTERVAL`, in nanoseconds. -/
def progressFlushInterval : Nat := 50 * 1000 * 1000

def progressFlushBytes : Nat := 256 * 1024

structure RepoBar where
  jobId : Uuid
  barId : Uuid
  deriving DecidableEq

structure TxProgress where
  bar : RepoBar
  /-- The text in front of every title. -/
  front : Text

structure PendingIncrement where
  bytes : Nat
  /-- The time of the last flush. -/
  lastFlush : Option Nat
  deriving DecidableEq

/-- The fields of the bar's events; the times are left out. -/
inductive Payload where
  | lengthSet (jobId barId : Text) (length : Nat)
  | titleSet (jobId barId title : Text)
  | increment (jobId barId : Text) (increment : Nat)
  | finished (jobId barId : Text)
  | other
  deriving DecidableEq

/-- The calls of `RusticProgress`. -/
inductive Call where
  | setLength (length : Nat)
  | setTitle (title : Text)
  | inc (inc : Nat)
  | finish
  deriving DecidableEq

inductive CallPc where
  | absent
  | called
  /-- About to take the lock in `flush_increment`. -/
  | flush
  /-- The pending bytes are taken and the lock is released. -/
  | send (increment : Nat)
  /-- `finish` has flushed. -/
  | announce
  | returned
  deriving DecidableEq

structure ProgressState (ι : Type) where
  pending : PendingIncrement
  now : Nat
  bus : BusState Payload
  calls : ι → CallPc

inductive ProgressEvent (ι : Type) where
  | invoke (call : ι)
  | advance (call : ι)
  | elapse (time : Nat)
  /-- Events of other bars and everyone else, the bridge and Poll. -/
  | bus (event : BusEvent Payload)

def progressStart {ι : Type} (now : Nat) : ProgressState ι where
  pending := ⟨0, none⟩
  now := now
  bus := busStart
  calls := fun _ => .absent

def lengthSet (tx : TxProgress) (length : Nat) : Data Payload :=
  .jobStepLengthSet (.lengthSet tx.bar.jobId.hyphenated tx.bar.barId.hyphenated length)

def titleSet (tx : TxProgress) (title : Text) : Data Payload :=
  .jobStepTitleSet (.titleSet tx.bar.jobId.hyphenated tx.bar.barId.hyphenated
    ('[' :: tx.front ++ "] ".toList ++ title))

def stepIncrement (tx : TxProgress) (increment : Nat) : Data Payload :=
  .jobStepIncrement (.increment tx.bar.jobId.hyphenated tx.bar.barId.hyphenated increment)

def stepFinished (tx : TxProgress) : Data Payload :=
  .jobStepFinished (.finished tx.bar.jobId.hyphenated tx.bar.barId.hyphenated)

/-- What `inc` does under the lock. -/
def PendingIncrement.add (pending : PendingIncrement) (inc : Nat) : PendingIncrement :=
  { pending with bytes := saturatingAdd pending.bytes inc }

def PendingIncrement.shouldFlush (pending : PendingIncrement) (now : Nat) : Bool :=
  progressFlushBytes ≤ pending.bytes ||
    (pending.lastFlush.map fun last => decide (progressFlushInterval ≤ now - last)).getD true

/-- What follows `flush_increment`. -/
def afterFlush : Call → CallPc
  | .finish => .announce
  | _ => .returned

variable {ι : Type} [DecidableEq ι]

def ProgressState.goto (state : ProgressState ι) (call : ι) (pc : CallPc) : ProgressState ι :=
  { state with calls := Function.update state.calls call pc }

@[simp] theorem goto_calls (state : ProgressState ι) (call : ι) (pc : CallPc) :
    (state.goto call pc).calls = Function.update state.calls call pc := rfl

@[simp] theorem goto_pending (state : ProgressState ι) (call : ι) (pc : CallPc) :
    (state.goto call pc).pending = state.pending := rfl

/-- `send_event`, whose answer is ignored. -/
def ProgressState.emit (state : ProgressState ι) (call : ι) (data : Data Payload) (pc : CallPc) :
    Option (ProgressState ι) :=
  (busStep state.bus (.send data)).map fun bus => { state.goto call pc with bus }

/-- The first section of a call. -/
def enter (tx : TxProgress) (state : ProgressState ι) (call : ι) : Call → Option (ProgressState ι)
  | .setLength length => state.emit call (lengthSet tx length) .returned
  | .setTitle title => state.emit call (titleSet tx title) .returned
  | .inc inc =>
    let pending := state.pending.add inc
    some ({ state with pending }.goto call (if pending.shouldFlush state.now then .flush else .returned))
  | .finish => some (state.goto call .flush)

def callStep (tx : TxProgress) (state : ProgressState ι) (call : ι) (what : Call) : CallPc → Option (ProgressState ι)
  | .absent | .returned => none
  | .called => enter tx state call what
  | .flush =>
    if state.pending.bytes = 0 then some (state.goto call (afterFlush what))
    else some ({ state with pending := ⟨0, some state.now⟩ }.goto call (.send state.pending.bytes))
  | .send increment => state.emit call (stepIncrement tx increment) (afterFlush what)
  | .announce => state.emit call (stepFinished tx) .returned

/-- The event is an increment or the end of this bar. -/
def ofBar (tx : TxProgress) (data : Data Payload) : Bool :=
  match data with
  | .jobStepIncrement (.increment jobId barId _) => jobId = tx.bar.jobId.hyphenated && barId = tx.bar.barId.hyphenated
  | .jobStepFinished (.finished jobId barId) => jobId = tx.bar.jobId.hyphenated && barId = tx.bar.barId.hyphenated
  | _ => false

def sendsOfBar (tx : TxProgress) : BusEvent Payload → Bool
  | .send data => ofBar tx data
  | _ => false

def progressStep (tx : TxProgress) (what : ι → Call) (state : ProgressState ι) :
    ProgressEvent ι → Option (ProgressState ι)
  | .invoke call => if state.calls call = .absent then some (state.goto call .called) else none
  | .advance call => callStep tx state call (what call) (state.calls call)
  | .elapse time => some { state with now := state.now + time }
  | .bus event =>
    -- `Uuid::new_v4` gives every bar an id of its own.
    if sendsOfBar tx event then none else (busStep state.bus event).map fun bus => { state with bus }

/-! ### What a run counts and sends -/

/-- The bytes an `inc` adds under the lock. -/
def countedBy (what : ι → Call) (state : ProgressState ι) : ProgressEvent ι → Option Nat
  | .advance call =>
    match state.calls call, what call with
    | .called, .inc inc => some inc
    | _, _ => none
  | _ => none

/-- The increment handed to `send_event`, which may drop it. -/
def handedBy (state : ProgressState ι) : ProgressEvent ι → Option Nat
  | .advance call =>
    match state.calls call with
    | .send increment => some increment
    | _ => none
  | _ => none

def inHand : CallPc → Nat
  | .send increment => increment
  | _ => 0

@[simp] theorem inHand_absent : inHand .absent = 0 := rfl

@[simp] theorem inHand_called : inHand .called = 0 := rfl

@[simp] theorem inHand_flush : inHand .flush = 0 := rfl

@[simp] theorem inHand_send (increment : Nat) : inHand (.send increment) = increment := rfl

@[simp] theorem inHand_announce : inHand .announce = 0 := rfl

@[simp] theorem inHand_returned : inHand .returned = 0 := rfl

end Vaulton.Progress
