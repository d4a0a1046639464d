import Mathlib

/-! The event path (`ipc/src/event_bus.rs`, the bridge thread of `GrpcServer::new` and
`poll`): producers send into a bounded channel, the bridge moves events one at a time
into the Poll buffer, and every Poll drains a batch. The bridge holds the buffer's mutex
for one attempt at a time, so an attempt and a Poll are single steps. -/

namespace Vaulton.EventBus

variable {π : Type}

/-- The variants of `ipc_event::Data`. Of their fields only the priority of a message is
read here; the others are the payload. -/
inductive Data (π : Type) where
  | logEvent (priority : Int) (payload : π)
  | jobFinished (payload : π)
  | jobMessage (priority : Int) (payload : π)
  | jobStepLengthSet (payload : π)
  | jobStepTitleSet (payload : π)
  | jobStepIncrement (payload : π)
  | jobStepFinished (payload : π)
  | pointStatus (payload : π)
  deriving DecidableEq, Repr

/-- `Priority::Error as i32`. -/
def priorityError : Int := 3

def isCritical : Data π → Bool
  | .jobFinished _ | .pointStatus _ => true
  | .jobMessage priority _ => decide (priority ≥ priorityError)
  | .logEvent priority _ => decide (priority ≥ priorityError)
  | _ => false

structure IpcEvent (π : Type) where
  data : Option (Data π)
  deriving DecidableEq, Repr

/-- What the bridge may sacrifice: anything but a critical event. -/
def evictable (event : IpcEvent π) : Bool := (event.data.map fun data => !isCritical data).getD true

/-- The bound of the channel, `event_bus::CAPACITY`. -/
def capacity : Nat := 8192

def maxEvents : Nat := 10000

def pollBatch : Nat := 2000

structure BusState (π : Type) where
  channel : List (Data π)
  /-- The event the bridge has received and neither placed nor dropped. -/
  pending : Option (Data π)
  buffer : List (IpcEvent π)

inductive BusEvent (π : Type) where
  | send (data : Data π)
  | recv
  /-- The bridge holds the lock of the buffer once. -/
  | attempt
  | poll

def busStart : BusState π := ⟨[], none, []⟩

/-- The buffer with the event placed in it, `none` when the event is not accepted. -/
def place (buffer : List (IpcEvent π)) (data : Data π) : Option (List (IpcEvent π)) :=
  if buffer.length < maxEvents then some (buffer ++ [⟨some data⟩])
  else (buffer.findIdx? evictable).map fun index => buffer.eraseIdx index ++ [⟨some data⟩]

/-- The events one Poll returns. -/
def batch (buffer : List (IpcEvent π)) : List (IpcEvent π) := buffer.take (min buffer.length pollBatch)

def busStep (state : BusState π) : BusEvent π → Option (BusState π)
  | .send data =>
    if state.channel.length < capacity then some { state with channel := state.channel ++ [data] }
    -- A critical event waits for room, any other event is dropped.
    else if isCritical data then none
    else some state
  | .recv =>
    match state.pending, state.channel with
    | none, data :: rest => some { state with channel := rest, pending := some data }
    | _, _ => none
  | .attempt =>
    match state.pending with
    | none => none
    | some data =>
      match place state.buffer data with
      | some buffer => some { state with buffer, pending := none }
      -- A critical event is tried again after a pause.
      | none => if isCritical data then some state else some { state with pending := none }
  | .poll => some { state with buffer := state.buffer.drop (min state.buffer.length pollBatch) }

/-! ### What goes in and out along a run -/

def sentBy (state : BusState π) : BusEvent π → Option (Data π)
  | .send data => if state.channel.length < capacity then some data else none
  | _ => none

def receivedBy (state : BusState π) : BusEvent π → Option (Data π)
  | .recv => state.channel.head?
  | _ => none

def polledBy (state : BusState π) : BusEvent π → Option (List (IpcEvent π))
  | .poll => some (batch state.buffer)
  | _ => none

/-- The event the bridge is still waiting to place, if it is critical. -/
def waiting (state : BusState π) : List (IpcEvent π) :=
  (state.pending.filter isCritical).toList.map fun data => ⟨some data⟩

end Vaulton.EventBus
