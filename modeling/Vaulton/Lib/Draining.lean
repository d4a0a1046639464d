import Vaulton.Lib.Machine
import Vaulton.Lib.Weight

/-! Machines that come to an end. Where every state with something left to do has a step
that lowers a rank, there is a run to a state with nothing left to do. -/

namespace Vaulton.Lib

universe u v

variable {σ : Type u} {ε : Type v} {step : σ → ε → Option σ}

/-- Some run whose steps are all allowed ends in a state with the goal. -/
def Drains (step : σ → ε → Option σ) (allowed : σ → ε → Prop) (goal : σ → Prop) (state : σ) : Prop :=
  ∃ events final, Guarded step allowed state events ∧ run step state events = some final ∧ goal final

theorem drains_of_rank {invariant goal : σ → Prop} {allowed : σ → ε → Prop} (rank : σ → Nat)
    (goes : ∀ state, invariant state → ¬goal state → ∃ event next, allowed state event ∧ step state event = some next ∧
      invariant next ∧ rank next < rank state)
    {state : σ} (holds : invariant state) : Drains step allowed goal state := by
  induction bound : rank state using Nat.strongRecOn generalizing state with
  | ind bound ih =>
    by_cases done : goal state
    · exact ⟨[], state, trivial, rfl, done⟩
    · obtain ⟨event, next, allows, taken, kept, lower⟩ := goes state holds done
      obtain ⟨events, final, guarded, executed, reached⟩ := ih (rank next) (bound ▸ lower) kept rfl
      exact ⟨event :: events, final, guarded_cons allows taken guarded, run_cons.mpr ⟨next, taken, executed⟩, reached⟩

open Finset in
/-- The ranks of all callers together go down when one caller's does. -/
theorem sum_rank_lt {ι γ : Type} [Fintype ι] [DecidableEq ι] (rank : γ → Nat) (positions : ι → γ) (caller : ι) (position : γ)
    (lower : rank position < rank (positions caller)) :
    ∑ other, rank (Function.update positions caller position other) < ∑ other, rank (positions other) := by
  have moved := sum_update (fun place => (rank place : ℤ)) positions caller position
  rw [← Nat.cast_sum, ← Nat.cast_sum] at moved
  omega

end Vaulton.Lib
