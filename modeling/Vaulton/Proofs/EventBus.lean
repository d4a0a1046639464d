import Vaulton.EventBus
import Vaulton.Lib.Machine

/-! No critical event is lost between the channel and Poll, and nothing overtakes. -/

namespace Vaulton.Proofs.EventBus
open Vaulton.Lib Vaulton.EventBus

variable {π : Type} {state next : BusState π} {events before : List (BusEvent π)} {event : BusEvent π}

/-- The events the bridge has received, as they stand in the buffer. -/
def received (events : List (BusEvent π)) : List (IpcEvent π) :=
  (collect busStep receivedBy busStart events).map fun data => ⟨some data⟩

/-- The events all Polls have returned. -/
def polled (events : List (BusEvent π)) : List (IpcEvent π) := (collect busStep polledBy busStart events).flatten

def sent (events : List (BusEvent π)) : List (Data π) := collect busStep sentBy busStart events

/-- The event in the bridge's hands, critical or not. -/
def held (state : BusState π) : List (IpcEvent π) := state.pending.toList.map fun data => ⟨some data⟩

def critical (event : IpcEvent π) : Bool := !evictable event

theorem critical_some (data : Data π) : critical ⟨some data⟩ = isCritical data := by
  simp [critical, evictable]

/-! ### The buffer -/

theorem place_cases {buffer placed : List (IpcEvent π)} {data : Data π} (accepted : place buffer data = some placed) :
    (placed = buffer ++ [⟨some data⟩] ∧ buffer.length < maxEvents) ∨
    (∃ index, ∃ bound : index < buffer.length, evictable buffer[index] = true ∧
      placed = buffer.eraseIdx index ++ [⟨some data⟩]) := by
  unfold place at accepted
  split at accepted
  next room =>
    cases accepted
    exact .inl ⟨rfl, room⟩
  next =>
    obtain ⟨index, found, rfl⟩ := Option.map_eq_some_iff.mp accepted
    obtain ⟨bound, chosen, -⟩ := List.findIdx?_eq_some_iff_getElem.mp found
    exact .inr ⟨index, bound, chosen, rfl⟩

theorem place_length {buffer placed : List (IpcEvent π)} {data : Data π} (bounded : buffer.length ≤ maxEvents)
    (accepted : place buffer data = some placed) : placed.length ≤ maxEvents := by
  rcases place_cases accepted with ⟨rfl, room⟩ | ⟨index, bound, -, rfl⟩
  · rw [List.length_append, List.length_singleton]
    omega
  · rw [List.length_append, List.length_singleton, List.length_eraseIdx_of_lt bound]
    omega

theorem place_sublist {buffer placed : List (IpcEvent π)} {data : Data π} (accepted : place buffer data = some placed) :
    placed.Sublist (buffer ++ [⟨some data⟩]) := by
  rcases place_cases accepted with ⟨rfl, -⟩ | ⟨index, -, -, rfl⟩
  · exact List.Sublist.refl _
  · exact (List.eraseIdx_sublist buffer index).append (List.Sublist.refl _)

theorem filter_eraseIdx {buffer : List (IpcEvent π)} {index : Nat} (bound : index < buffer.length)
    (chosen : evictable buffer[index] = true) : (buffer.eraseIdx index).filter critical = buffer.filter critical := by
  have split : buffer = buffer.take index ++ buffer[index] :: buffer.drop (index + 1) := by
    rw [List.getElem_cons_drop, List.take_append_drop]
  have sacrificed : critical buffer[index] = false := by
    rw [critical, chosen]
    rfl
  rw [List.eraseIdx_eq_take_drop_succ]
  conv_rhs => rw [split]
  rw [List.filter_append, List.filter_append, List.filter_cons_of_neg (by simp [sacrificed])]

theorem place_filter {buffer placed : List (IpcEvent π)} {data : Data π} (accepted : place buffer data = some placed) :
    placed.filter critical = (buffer ++ [IpcEvent.mk (some data)]).filter critical := by
  rcases place_cases accepted with ⟨rfl, -⟩ | ⟨index, bound, chosen, rfl⟩
  · rfl
  · rw [List.filter_append, List.filter_append, filter_eraseIdx bound chosen]

/-! ### One step -/

/-- Everything received is polled, buffered, in the bridge's hands or was expendable. -/
structure Kept (events : List (BusEvent π)) (state : BusState π) : Prop where
  bounded : state.buffer.length ≤ maxEvents
  inOrder : (polled events ++ state.buffer ++ held state).Sublist (received events)
  complete : (polled events ++ state.buffer ++ held state).filter critical = (received events).filter critical

theorem Kept.initial : Kept [] (busStart : BusState π) where
  bounded := Nat.zero_le _
  inOrder := List.nil_sublist _
  complete := rfl

private theorem Kept.quiet (kept : Kept before state) (executed : run busStep busStart before = some state)
    (taken : busStep state event = some next) (receives : receivedBy state event = none)
    (returns : polledBy state event = none) (bounded : next.buffer.length ≤ maxEvents)
    (inOrder : (next.buffer ++ held next).Sublist (state.buffer ++ held state))
    (complete : (next.buffer ++ held next).filter critical = (state.buffer ++ held state).filter critical) :
    Kept (before ++ [event]) next := by
  have arrived : received (before ++ [event]) = received before := by
    simp [received, collect_concat executed taken, receives]
  have returned : polled (before ++ [event]) = polled before := by
    simp [polled, collect_concat executed taken, returns]
  refine ⟨bounded, ?_, ?_⟩
  · rw [arrived, returned, List.append_assoc]
    apply List.Sublist.trans _ kept.inOrder
    rw [List.append_assoc]
    exact (List.Sublist.refl _).append inOrder
  · rw [arrived, returned, ← kept.complete, List.append_assoc, List.append_assoc, List.filter_append, complete,
      ← List.filter_append]

private theorem Kept.send_step {data : Data π} (kept : Kept before state)
    (executed : run busStep busStart before = some state) (taken : busStep state (.send data) = some next) :
    Kept (before ++ [.send data]) next := by
  have same : next.buffer = state.buffer ∧ next.pending = state.pending := by
    simp only [busStep] at taken
    split at taken
    · cases taken
      exact ⟨rfl, rfl⟩
    · split at taken <;> cases taken
      exact ⟨rfl, rfl⟩
  have unmoved : held next = held state := by rw [held, held, same.2]
  apply kept.quiet executed taken rfl rfl
  · rw [same.1]
    exact kept.bounded
  · rw [same.1, unmoved]
  · rw [same.1, unmoved]

private theorem Kept.recv_step (kept : Kept before state) (executed : run busStep busStart before = some state)
    (taken : busStep state .recv = some next) : Kept (before ++ [.recv]) next := by
  have moved := taken
  simp only [busStep] at moved
  split at moved
  next data rest idle queued =>
    cases moved
    have arrived : received (before ++ [.recv]) = received before ++ [⟨some data⟩] := by
      simp [received, collect_concat executed taken, receivedBy, queued]
    have returned : polled (before ++ [.recv]) = polled before := by
      simp [polled, collect_concat executed taken, polledBy]
    have empty : held state = [] := by simp [held, idle]
    have inOrder := kept.inOrder
    have complete := kept.complete
    rw [empty, List.append_nil] at inOrder complete
    refine ⟨kept.bounded, ?_, ?_⟩
    · rw [arrived, returned]
      exact inOrder.append (List.Sublist.refl _)
    · rw [arrived, returned, List.filter_append, complete, List.filter_append]
      rfl
  next => cases moved

private theorem Kept.attempt_step (kept : Kept before state) (executed : run busStep busStart before = some state)
    (taken : busStep state .attempt = some next) : Kept (before ++ [.attempt]) next := by
  have moved := taken
  simp only [busStep] at moved
  split at moved
  next => cases moved
  next data pending =>
    have hand : held state = [⟨some data⟩] := by simp [held, pending]
    split at moved
    next placed accepted =>
      cases moved
      apply kept.quiet executed taken rfl rfl
      · exact place_length kept.bounded accepted
      · rw [hand]
        simpa [held] using place_sublist accepted
      · rw [hand, ← place_filter accepted]
        simp [held]
    next =>
      split at moved
      next =>
        cases moved
        exact kept.quiet executed taken rfl rfl kept.bounded (List.Sublist.refl _) rfl
      next expendable =>
        cases moved
        apply kept.quiet executed taken rfl rfl kept.bounded
        · rw [hand]
          simp [held]
        · rw [hand, List.filter_append, List.filter_append]
          simp [held, critical_some, expendable]

private theorem Kept.poll_step (kept : Kept before state) (executed : run busStep busStart before = some state)
    (taken : busStep state .poll = some next) : Kept (before ++ [.poll]) next := by
  have moved := taken
  cases moved
  have arrived : received (before ++ [.poll]) = received before := by
    simp [received, collect_concat executed taken, receivedBy]
  have returned : polled (before ++ [.poll]) = polled before ++ batch state.buffer := by
    simp [polled, collect_concat executed taken, polledBy]
  have whole : batch state.buffer ++ state.buffer.drop (min state.buffer.length pollBatch) = state.buffer :=
    List.take_append_drop _ _
  refine ⟨?_, ?_, ?_⟩
  · rw [List.length_drop]
    exact Nat.le_trans (Nat.sub_le _ _) kept.bounded
  · rw [arrived, returned, List.append_assoc (polled before), whole]
    exact kept.inOrder
  · rw [arrived, returned, List.append_assoc (polled before), whole]
    exact kept.complete

theorem Kept.step (kept : Kept before state) (executed : run busStep busStart before = some state)
    (taken : busStep state event = some next) : Kept (before ++ [event]) next := by
  cases event with
  | send data => exact kept.send_step executed taken
  | recv => exact kept.recv_step executed taken
  | attempt => exact kept.attempt_step executed taken
  | poll => exact kept.poll_step executed taken

theorem kept_of_run (executed : run busStep busStart events = some state) : Kept events state := by
  apply run_history Kept Kept.initial _ executed
  intro before middle event next reached kept taken
  exact kept.step reached taken

/-! ### Whole runs -/

/-- A bridge that waits holds a critical event; any other event in its hands may be dropped. -/
theorem waiting_sublist (state : BusState π) : (waiting state).Sublist (held state) := by
  cases pending : state.pending with
  | none => simp [waiting, pending]
  | some data => by_cases urgent : isCritical data <;> simp [waiting, held, pending, urgent]

theorem waiting_filter (state : BusState π) : (waiting state).filter critical = (held state).filter critical := by
  cases pending : state.pending with
  | none => simp [waiting, held, pending]
  | some data => by_cases urgent : isCritical data <;> simp [waiting, held, pending, urgent, critical_some, Option.filter]

theorem Kept.critical_kept (kept : Kept events state) :
    (polled events ++ state.buffer ++ waiting state).filter critical = (received events).filter critical := by
  rw [← kept.complete, List.filter_append, List.filter_append _ (held state), waiting_filter]

/-- In every run the buffer stays within its bound, and what Polls have returned, what
is buffered and what the bridge waits to place are the received events in their order,
less some that are not critical. -/
theorem bridge_loses_no_critical_event (events : List (BusEvent π)) (final : BusState π)
    (executed : run busStep busStart events = some final) :
    final.buffer.length ≤ maxEvents ∧
    (polled events ++ final.buffer ++ waiting final).Sublist (received events) ∧
    (polled events ++ final.buffer ++ waiting final).filter critical = (received events).filter critical := by
  have kept := kept_of_run executed
  refine ⟨kept.bounded, ?_, kept.critical_kept⟩
  apply List.Sublist.trans _ kept.inOrder
  exact (List.Sublist.refl _).append (waiting_sublist final)

/-- A log line and the end of a job on their way to Poll. -/
def shortRun : List (BusEvent Nat) :=
  [.send (.logEvent 1 7), .send (.jobFinished 8), .recv, .attempt, .poll, .recv]

theorem short_run_keeps_job_end : ∃ final, run busStep busStart shortRun = some final ∧
    polled shortRun ++ final.buffer ++ waiting final = [⟨some (.logEvent 1 7)⟩, ⟨some (.jobFinished 8)⟩] ∧
    (polled shortRun ++ final.buffer ++ waiting final).Sublist (received shortRun) :=
  ⟨_, rfl, by decide, (bridge_loses_no_critical_event shortRun _ rfl).2.1⟩

/-! ### From the producers on -/

theorem sent_eq (executed : run busStep busStart events = some state) :
    sent events = collect busStep receivedBy busStart events ++ state.channel := by
  apply run_history (fun events state => sent events = collect busStep receivedBy busStart events ++ state.channel) rfl
    _ executed
  intro before middle event next reached kept taken
  unfold sent at kept ⊢
  rw [collect_concat reached taken, collect_concat reached taken, kept]
  cases event with
  | send data =>
    by_cases room : middle.channel.length < capacity
    · simp only [busStep, if_pos room] at taken
      cases taken
      simp [sentBy, receivedBy, room]
    · simp only [busStep, if_neg room] at taken
      split at taken <;> cases taken
      simp [sentBy, receivedBy, room]
  | recv =>
    simp only [busStep] at taken
    split at taken <;> cases taken
    next data rest idle queued => simp [sentBy, receivedBy, queued]
  | attempt =>
    have same : next.channel = middle.channel := by
      simp only [busStep] at taken
      repeat' split at taken
      all_goals cases taken <;> rfl
    simp [sentBy, receivedBy, same]
  | poll =>
    cases taken
    simp [sentBy, receivedBy]

/-- A critical event that a producer has sent is polled, buffered, waiting in the bridge
or still in the channel. -/
theorem sent_critical_events_survive (executed : run busStep busStart events = some state) :
    (polled events ++ state.buffer ++ waiting state).filter critical ++
      (state.channel.map fun data => IpcEvent.mk (some data)).filter critical =
      ((sent events).map fun data => IpcEvent.mk (some data)).filter critical := by
  rw [(kept_of_run executed).critical_kept, sent_eq executed, List.map_append, List.filter_append]
  rfl

/-! ### Room in the channel -/

/-- The channel and the buffer stay within their bounds. -/
def Bounded (state : BusState π) : Prop := state.channel.length ≤ capacity ∧ state.buffer.length ≤ maxEvents

theorem Bounded.step (bounded : Bounded state) (taken : busStep state event = some next) : Bounded next := by
  obtain ⟨channel, buffer⟩ := bounded
  cases event with
  | send data =>
    simp only [busStep] at taken
    split at taken
    next room =>
      cases taken
      refine ⟨?_, buffer⟩
      rw [List.length_append, List.length_singleton]
      omega
    next =>
      split at taken <;> cases taken
      exact ⟨channel, buffer⟩
  | recv =>
    simp only [busStep] at taken
    split at taken <;> cases taken
    next data rest idle queued =>
      rw [queued, List.length_cons] at channel
      exact ⟨Nat.le_of_succ_le channel, buffer⟩
  | attempt =>
    simp only [busStep] at taken
    split at taken
    next => cases taken
    next data pending =>
      split at taken
      next placed accepted =>
        cases taken
        exact ⟨channel, place_length buffer accepted⟩
      next =>
        split at taken <;> cases taken
        all_goals exact ⟨channel, buffer⟩
  | poll =>
    cases taken
    refine ⟨channel, ?_⟩
    rw [List.length_drop]
    omega

theorem Bounded.initial : Bounded (busStart : BusState π) := ⟨Nat.zero_le _, Nat.zero_le _⟩

/-- The events of the bridge and of Poll. -/
def receives : BusEvent π → Bool
  | .send _ => false
  | .recv | .attempt | .poll => true

/-- A Poll and the bridge always get to make room for another event. -/
theorem room_reachable (bounded : Bounded state) : ∃ events final, (∀ event ∈ events, receives event = true) ∧
    run busStep state events = some final ∧ final.channel.length < capacity := by
  by_cases room : state.channel.length < capacity
  · exact ⟨[], state, by simp, rfl, room⟩
  · have full : 0 < state.channel.length := Nat.lt_of_lt_of_le (by simp [capacity]) (Nat.le_of_not_lt room)
    obtain ⟨data, rest, queued⟩ := List.exists_cons_of_length_pos full
    have channel := bounded.1
    rw [queued, List.length_cons] at channel
    cases held : state.pending with
    | none =>
      refine ⟨[.recv], { state with channel := rest, pending := some data }, by simp [receives], ?_, by simpa using channel⟩
      simp [run, busStep, held, queued]
    | some waiting =>
      let drained := state.buffer.drop (min state.buffer.length pollBatch)
      have short : drained.length < maxEvents := by
        have within := bounded.2
        simp only [drained, List.length_drop, maxEvents, pollBatch] at within ⊢
        omega
      refine ⟨[.poll, .attempt, .recv], ⟨rest, some data, drained ++ [⟨some waiting⟩]⟩, by simp [receives], ?_,
        by simpa using channel⟩
      have placed : place drained waiting = some (drained ++ [⟨some waiting⟩]) := if_pos short
      simp [run, busStep, held, queued, drained, placed]

end Vaulton.Proofs.EventBus
