import Vaulton.Lib.Machine

/-! Machines that implement an object with atomic operations. A caller takes effect in one
step, its commit; every other step leaves the object alone. The object is then what the
committed changes make of it one after another, in an order that respects real time. -/

namespace Vaulton.Lib

universe u v w x y

variable {σ : Type u} {ε : Type v} {ι : Type w} {β : Type x} {τ : Type y}

structure Linear (step : σ → ε → Option σ) (ι : Type w) (β : Type x) (τ : Type y) where
  view : σ → τ
  /-- The caller that takes effect in a step, and the change it makes. -/
  commit : σ → ε → Option (ι × β)
  apply : τ → β → τ
  /-- The caller has had its step. -/
  done : σ → ι → Prop
  silent : ∀ state event next, step state event = some next → commit state event = none → view next = view state
  moves : ∀ state event next caller change, step state event = some next → commit state event = some (caller, change) →
    view next = apply (view state) change ∧ ¬done state caller ∧ done next caller
  kept : ∀ state event next caller, step state event = some next → done state caller → done next caller

variable {step : σ → ε → Option σ} (linear : Linear step ι β τ) {start middle final : σ} {events before after : List ε}

/-- The commits of a run, in their order. -/
def Linear.history (start : σ) (events : List ε) : List (ι × β) := collect step linear.commit start events

/-- What a sequence of changes makes of the object. -/
def Linear.replay (object : τ) (history : List (ι × β)) : τ := history.foldl (fun object entry => linear.apply object entry.2) object

theorem Linear.history_append (executed : run step start before = some middle) (after : List ε) :
    linear.history start (before ++ after) = linear.history start before ++ linear.history middle after := by
  induction before generalizing start with
  | nil =>
    cases executed
    rfl
  | cons event rest ih =>
    obtain ⟨next, taken, later⟩ := run_cons.mp executed
    have rest := ih later
    simp only [Linear.history] at rest ⊢
    simp [collect, taken, rest]

theorem Linear.replay_append (object : τ) (first second : List (ι × β)) :
    linear.replay object (first ++ second) = linear.replay (linear.replay object first) second :=
  List.foldl_append

theorem Linear.view_eq (executed : run step start events = some final) :
    linear.view final = linear.replay (linear.view start) (linear.history start events) := by
  apply run_history (fun events state => linear.view state = linear.replay (linear.view start) (linear.history start events))
    rfl _ executed
  intro before state event next reached equal taken
  rw [Linear.history, collect_concat reached taken]
  cases committed : linear.commit state event with
  | none =>
    rw [linear.silent state event next taken committed, Option.toList_none, List.append_nil]
    exact equal
  | some entry =>
    rw [(linear.moves state event next entry.1 entry.2 taken committed).1, equal, Linear.replay_append]
    rfl

theorem Linear.done_of_run {caller : ι} (executed : run step start events = some final) (before : linear.done start caller) :
    linear.done final caller :=
  run_invariant (fun state => linear.done state caller) (fun state event next had taken => linear.kept state event next caller taken had)
    before executed

/-- Whoever commits had not at the beginning, and has at the end. -/
theorem Linear.done_of_history {caller : ι} {change : β} (executed : run step start events = some final)
    (member : (caller, change) ∈ linear.history start events) : ¬linear.done start caller ∧ linear.done final caller := by
  induction events generalizing start with
  | nil => cases member
  | cons event rest ih =>
    obtain ⟨next, taken, later⟩ := run_cons.mp executed
    have split : linear.history start (event :: rest) = (linear.commit start event).toList ++ linear.history next rest := by
      simp [Linear.history, collect, taken]
    rw [split, List.mem_append, Option.mem_toList] at member
    rcases member with here | there
    · obtain ⟨-, before, after⟩ := linear.moves start event next caller change taken here
      exact ⟨before, linear.done_of_run later after⟩
    · obtain ⟨before, after⟩ := ih later there
      exact ⟨fun had => before (linear.kept start event next caller taken had), after⟩

theorem Linear.nodup (executed : run step start events = some final) : ((linear.history start events).map Prod.fst).Nodup := by
  induction events generalizing start with
  | nil => exact List.nodup_nil
  | cons event rest ih =>
    obtain ⟨next, taken, later⟩ := run_cons.mp executed
    have split : linear.history start (event :: rest) = (linear.commit start event).toList ++ linear.history next rest := by
      simp [Linear.history, collect, taken]
    rw [split]
    cases committed : linear.commit start event with
    | none => exact ih later
    | some entry =>
      obtain ⟨-, -, after⟩ := linear.moves start event next entry.1 entry.2 taken committed
      simp only [Option.toList_some, List.cons_append, List.nil_append, List.map_cons, List.nodup_cons]
      refine ⟨?_, ih later⟩
      intro member
      obtain ⟨⟨caller, change⟩, again, same⟩ := List.mem_map.mp member
      cases same
      exact (linear.done_of_history later again).1 after

theorem Linear.mem_history {state next : σ} {event : ε} {entry : ι × β} (occurs : Occurs step start events state event next)
    (committed : linear.commit state event = some entry) : entry ∈ linear.history start events := by
  obtain ⟨before, after, rfl, executed, taken⟩ := occurs
  rw [linear.history_append executed]
  apply List.mem_append_right
  rw [Linear.history, collect, committed]
  exact List.mem_append_left _ List.mem_cons_self

/-- What is known of every commit where it happens is known of the whole history. -/
theorem Linear.forall_history {property : ι → β → Prop}
    (holds : ∀ state event caller change, linear.commit state event = some (caller, change) → property caller change)
    {caller : ι} {change : β} (member : (caller, change) ∈ linear.history start events) : property caller change := by
  induction events generalizing start with
  | nil => cases member
  | cons event rest ih =>
    rw [Linear.history, collect, List.mem_append, Option.mem_toList] at member
    rcases member with here | there
    · exact holds start event caller change here
    · cases taken : step start event with
      | none => simp [taken] at there
      | some next =>
        simp only [taken] at there
        exact ih there

end Vaulton.Lib
