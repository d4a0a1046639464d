import Vaulton.Lib.Machine

/-! Two runs that an observer cannot tell apart. The states an observer takes for the same
stay so when steps that are not seen change nothing for the observer, and when a step
that is seen does the same on both sides. -/

namespace Vaulton.Lib

universe u v w x

variable {σ : Type u} {ε : Type v} {β : Type w} {γ : Type x} {step : σ → ε → Option σ}

structure Unwinding (step : σ → ε → Option σ) (observe : σ → ε → Option β) (same : σ → σ → Prop) : Prop where
  equivalence : Equivalence same
  silent : ∀ state event next, observe state event = none → step state event = some next → same state next
  seen : ∀ first second event other sight next last, same first second → observe first event = some sight →
    observe second other = some sight → step first event = some next → step second other = some last → same next last

variable {observe : σ → ε → Option β} {same : σ → σ → Prop}

theorem Unwinding.silent_run (unwinding : Unwinding step observe same) {state final : σ} {events : List ε}
    (executed : run step state events = some final) (unseen : collect step observe state events = []) :
    same state final := by
  induction events generalizing state with
  | nil =>
    cases executed
    exact unwinding.equivalence.refl _
  | cons event rest ih =>
    obtain ⟨next, taken, later⟩ := run_cons.mp executed
    rw [collect, taken] at unseen
    obtain ⟨here, remaining⟩ := List.append_eq_nil_iff.mp unseen
    have quiet : observe state event = none := Option.toList_eq_nil_iff.mp here
    exact unwinding.equivalence.trans (unwinding.silent state event next quiet taken) (ih later remaining)

theorem Unwinding.first_seen (unwinding : Unwinding step observe same) {state final : σ} {events : List ε} {sight : β}
    {trace : List β} (executed : run step state events = some final)
    (watched : collect step observe state events = sight :: trace) :
    ∃ middle event next rest, same state middle ∧ observe middle event = some sight ∧ step middle event = some next ∧
      run step next rest = some final ∧ collect step observe next rest = trace := by
  induction events generalizing state with
  | nil => cases watched
  | cons event rest ih =>
    obtain ⟨next, taken, later⟩ := run_cons.mp executed
    rw [collect, taken] at watched
    cases shown : observe state event with
    | none =>
      rw [shown] at watched
      obtain ⟨middle, other, last, left, alike, remaining⟩ := ih later watched
      have silent := unwinding.silent state event next shown taken
      exact ⟨middle, other, last, left, unwinding.equivalence.trans silent alike, remaining⟩
    | some found =>
      rw [shown] at watched
      obtain ⟨rfl, remaining⟩ := List.cons.inj watched
      exact ⟨state, event, next, rest, unwinding.equivalence.refl state, shown, taken, later, remaining⟩

/-- Runs with the same sights end in states that are the same to the observer. -/
theorem Unwinding.runs_agree (unwinding : Unwinding step observe same) {first second final last : σ} {events others : List ε}
    (alike : same first second) (executed : run step first events = some final) (repeated : run step second others = some last)
    (sights : collect step observe first events = collect step observe second others) : same final last := by
  have equivalence := unwinding.equivalence
  generalize watched : collect step observe first events = trace at sights
  induction trace generalizing first second events others with
  | nil =>
    have left := unwinding.silent_run executed watched
    have right := unwinding.silent_run repeated sights.symm
    exact equivalence.trans (equivalence.symm left) (equivalence.trans alike right)
  | cons sight trace ih =>
    obtain ⟨middle, event, next, rest, left, shown, taken, later, remaining⟩ := unwinding.first_seen executed watched
    obtain ⟨other_middle, other, other_next, other_rest, right, other_shown, other_taken, other_later, other_remaining⟩ :=
      unwinding.first_seen repeated sights.symm
    have meeting : same middle other_middle :=
      equivalence.trans (equivalence.symm left) (equivalence.trans alike right)
    have agreed := unwinding.seen _ _ _ _ _ _ _ meeting shown other_shown taken other_taken
    exact ih agreed later other_later remaining other_remaining.symm

theorem collect_filterMap (part : β → Option γ) (state : σ) (events : List ε) :
    collect step (fun state event => (observe state event).bind part) state events =
      (collect step observe state events).filterMap part := by
  induction events generalizing state with
  | nil => rfl
  | cons event rest ih =>
    have here : ((observe state event).bind part).toList = (observe state event).toList.filterMap part := by
      cases observe state event with
      | none => rfl
      | some sight => cases shown : part sight <;> simp [shown]
    rw [collect, collect, List.filterMap_append, here]
    cases step state event with
    | none => rfl
    | some next => exact congrArg _ (ih next)

end Vaulton.Lib
