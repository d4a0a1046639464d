import Vaulton.Lib.Machine

/-! A machine that runs another one inside it. Every step makes one step of the inner
machine or leaves its state alone, so a run of the outer machine holds a run of the inner
one, and what is known of the inner runs is known of the outer ones. -/

namespace Vaulton.Lib

universe u v w x y

variable {σ : Type u} {ε : Type v} {τ : Type w} {δ : Type x} {β : Type y}

structure Projection (step : σ → ε → Option σ) (inner : τ → δ → Option τ) where
  project : σ → τ
  /-- The step of the inner machine that a step makes. -/
  trace : σ → ε → Option δ
  silent : ∀ state event next, step state event = some next → trace state event = none → project next = project state
  moves : ∀ state event next move, step state event = some next → trace state event = some move →
    inner (project state) move = some (project next)

variable {step : σ → ε → Option σ} {inner : τ → δ → Option τ}

/-- The inner run. -/
def Projection.events (projection : Projection step inner) (start : σ) (events : List ε) : List δ :=
  collect step projection.trace start events

theorem Projection.run_inner (projection : Projection step inner) {start final : σ} {events : List ε}
    (executed : run step start events = some final) :
    run inner (projection.project start) (projection.events start events) = some (projection.project final) := by
  apply run_history
    (fun events state => run inner (projection.project start) (projection.events start events) = some (projection.project state))
    rfl _ executed
  intro before state event next reached kept taken
  rw [Projection.events, collect_concat reached taken]
  cases moved : projection.trace state event with
  | none =>
    rw [Option.toList_none, List.append_nil, projection.silent state event next taken moved]
    exact kept
  | some move =>
    apply run_append.mpr
    refine ⟨projection.project state, kept, ?_⟩
    simp [run, projection.moves state event next move taken moved]

theorem Projection.collect_inner (projection : Projection step inner) (observe : τ → δ → Option β) {start final : σ}
    {events : List ε} (executed : run step start events = some final) :
    collect inner observe (projection.project start) (projection.events start events) =
      collect step (fun state event => (projection.trace state event).bind (observe (projection.project state))) start events := by
  apply run_history
    (fun events _ => collect inner observe (projection.project start) (projection.events start events) =
      collect step (fun state event => (projection.trace state event).bind (observe (projection.project state))) start events)
    rfl _ executed
  intro before state event next reached kept taken
  have inside := projection.run_inner reached
  rw [collect_concat reached taken, ← kept]
  unfold Projection.events at inside ⊢
  rw [collect_concat reached taken]
  cases moved : projection.trace state event with
  | none => simp
  | some move =>
    rw [Option.toList_some, collect_concat inside (projection.moves state event next move taken moved)]
    rfl

/-! ### What is collected -/

/-- An observer that sees less sees a part of the same list. -/
theorem collect_sublist {observe other : σ → ε → Option β}
    (less : ∀ state event sight, observe state event = some sight → other state event = some sight) (start : σ)
    (events : List ε) : (collect step observe start events).Sublist (collect step other start events) := by
  induction events generalizing start with
  | nil => exact List.Sublist.refl _
  | cons event rest ih =>
    have here : (observe start event).toList.Sublist (other start event).toList := by
      cases seen : observe start event with
      | none => exact List.nil_sublist _
      | some sight => rw [less start event sight seen]
    rw [collect, collect]
    apply here.append
    cases step start event with
    | none => exact List.Sublist.refl _
    | some next => exact ih next

end Vaulton.Lib
