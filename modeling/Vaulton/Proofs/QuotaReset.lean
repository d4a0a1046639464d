import Vaulton.Lib.Machine
import Vaulton.QuotaReset

/-! When a reset that returned has taken effect. A reset that loses the cell to a load
looks at it once more; what it finds there decides. -/

namespace Vaulton.Proofs.QuotaReset
open Vaulton.Lib Vaulton.Quota Vaulton.QuotaReset

variable {ι κ : Type} {quotaId : String} {state next : TouchState ι κ}

/-- A reset looks again only at a cell that has its bucket. -/
def Published (state : TouchState ι κ) : TouchEvent ι κ → Prop
  | .reset call => state.resets call = some .resetAgain → ∃ counter, state.cell = some (.set counter)
  | _ => True

instance : (cell : Option Cell) → Decidable (∃ counter, cell = some (.set counter))
  | some (.set counter) => .isTrue ⟨counter, rfl⟩
  | some .empty | some .initialising | none => .isFalse (by simp)

instance (state : TouchState ι κ) : (event : TouchEvent ι κ) → Decidable (Published state event)
  | .reset _ => inferInstanceAs (Decidable (_ → _))
  | .invokeLoad _ | .load _ _ | .invokeReset _ => .isTrue trivial

/-- The call is not in flight. -/
def LoadPc.Settled : Option LoadPc → Prop
  | none | some (.done _) => True
  | _ => False

/-- Once a reset has returned and no load is in flight, the counter reads zero. -/
def ResetsTakeEffect (state : TouchState ι κ) : Prop :=
  (∃ call, state.resets call = some (.done (.ok 0))) → (∀ load, LoadPc.Settled (state.loads load)) →
    ∀ answer, currentBytes answer state.cell = .ok 0

/-- The task that runs the initialiser of the cell. -/
def Initialises : Option LoadPc → Prop
  | some .loading | some (.publishing _) => True
  | _ => False

/-- The positions a reset passes through. -/
def Resetting : OpPc → Prop
  | .cell | .resetGet | .resetSet | .resetAgain | .resetStore | .resetMark | .done _ => True
  | _ => False

def Zeroed (cell : Option Cell) : Prop := ∃ dirty, cell = some (.set ⟨0, dirty⟩)

/-- What keeps a reset in force: a load publishes only into a cell it initialises, and a
cell that was reset has its bucket. -/
structure InForce (state : TouchState ι κ) : Prop where
  initialiser : ∀ load, Initialises (state.loads load) → state.cell = some .initialising
  alone : ∀ first second, Initialises (state.loads first) → Initialises (state.loads second) → first = second
  resetting : ∀ call pc, state.resets call = some pc → Resetting pc
  stored : ∀ call, state.resets call = some .resetMark → Zeroed state.cell
  returned : ∀ call result, state.resets call = some (.done result) → Zeroed state.cell

theorem InForce.initial (known : Option (Option QuotaCounter)) : InForce (touchStart known : TouchState ι κ) where
  initialiser := by simp [touchStart, Initialises]
  alone := by simp [touchStart, Initialises]
  resetting := by simp [touchStart]
  stored := by simp [touchStart]
  returned := by simp [touchStart]

/-- A zeroed cell has its bucket, so no load initialises it. -/
theorem InForce.idle (inForce : InForce state) (zeroed : Zeroed state.cell) (load : ι) :
    ¬Initialises (state.loads load) := by
  intro initialises
  obtain ⟨dirty, same⟩ := zeroed
  have initialising := inForce.initialiser load initialises
  rw [same] at initialising
  cases initialising

/-! ### Steps of loads -/

section Loads

variable [DecidableEq ι]

private theorem InForce.load_moves {load : ι} {pc : LoadPc} {cell : Option Cell} (inForce : InForce state)
    (zeroed : Zeroed state.cell → Zeroed cell)
    (others : ∀ other, other ≠ load → Initialises (state.loads other) →
      cell = some .initialising ∧ ¬Initialises (some pc))
    (initialises : Initialises (some pc) → cell = some .initialising) :
    InForce { state with cell, loads := Function.update state.loads load (some pc) } := by
  refine ⟨?_, ?_, ?_, ?_, ?_⟩
  · intro other busy
    rcases of_update Initialises busy with ⟨-, here⟩ | ⟨apart, elsewhere⟩
    · exact initialises here
    · exact (others other apart elsewhere).1
  · intro first second busy also
    rcases of_update Initialises busy with ⟨rfl, here⟩ | ⟨apart, elsewhere⟩
    · rcases of_update Initialises also with ⟨rfl, -⟩ | ⟨away, there⟩
      · rfl
      · exact absurd here (others second away there).2
    · rcases of_update Initialises also with ⟨rfl, here⟩ | ⟨-, there⟩
      · exact absurd here (others first apart elsewhere).2
      · exact inForce.alone first second elsewhere there
  · exact inForce.resetting
  · exact fun call marking => zeroed (inForce.stored call marking)
  · exact fun call result done => zeroed (inForce.returned call result done)

private theorem InForce.load_step {load : ι} {answer : Answer} {pc after : LoadPc} {cell : Option Cell}
    (inForce : InForce state) (at_pc : state.loads load = some pc) (taken : loadStep answer state.cell pc = some (cell, after)) :
    InForce { state with cell, loads := Function.update state.loads load (some after) } := by
  have apart {other : ι} (busy : Initialises (state.loads load)) (different : other ≠ load)
      (also : Initialises (state.loads other)) : False := different (inForce.alone other load also busy)
  cases pc with
  | cell =>
    cases taken
    apply inForce.load_moves
    · intro ⟨dirty, same⟩
      exact ⟨dirty, by simp [same]⟩
    · intro other different busy
      exact ⟨by simp [inForce.initialiser other busy], id⟩
    · exact False.elim
  | init =>
    simp only [loadStep] at taken
    split at taken <;> cases taken
    next empty =>
      apply inForce.load_moves
      · intro ⟨dirty, same⟩
        rw [empty] at same
        cases same
      · intro other different busy
        have initialising := inForce.initialiser other busy
        rw [empty] at initialising
        cases initialising
      · exact fun _ => rfl
    next counter found =>
      apply inForce.load_moves id
      · intro other different busy
        exact ⟨inForce.initialiser other busy, id⟩
      · exact False.elim
  | loading =>
    have busy : Initialises (state.loads load) := by
      rw [at_pc]
      trivial
    have initialising := inForce.initialiser load busy
    simp only [loadStep] at taken
    split at taken <;> cases taken
    · exact inForce.load_moves id (fun other different also => (apart busy different also).elim) fun _ => initialising
    · exact inForce.load_moves id (fun other different also => (apart busy different also).elim) fun _ => initialising
    · apply inForce.load_moves
      · intro zeroed
        exact absurd busy (inForce.idle zeroed load)
      · exact fun other different also => (apart busy different also).elim
      · exact False.elim
  | publishing bytes =>
    have busy : Initialises (state.loads load) := by
      rw [at_pc]
      trivial
    cases taken
    apply inForce.load_moves
    · intro zeroed
      exact absurd busy (inForce.idle zeroed load)
    · exact fun other different also => (apart busy different also).elim
    · exact False.elim
  | read =>
    simp only [loadStep] at taken
    split at taken <;> cases taken
    apply inForce.load_moves id
    · intro other different busy
      exact ⟨inForce.initialiser other busy, id⟩
    · exact False.elim
  | done result => cases taken

end Loads

/-! ### Steps of resets -/

section Resets

variable [DecidableEq κ]

private theorem InForce.reset_moves {call : κ} {pc : OpPc} {cell : Option Cell} (inForce : InForce state)
    (initialising : state.cell = some .initialising → cell = some .initialising)
    (zeroed : Zeroed state.cell → Zeroed cell) (resetting : Resetting pc)
    (effective : pc = .resetMark ∨ (∃ result, pc = .done result) → Zeroed cell) :
    InForce { state with cell, resets := Function.update state.resets call (some pc) } := by
  refine ⟨?_, ?_, ?_, ?_, ?_⟩
  · exact fun load busy => initialising (inForce.initialiser load busy)
  · exact inForce.alone
  · intro other at_pc running
    rcases of_update (· = some at_pc) running with ⟨-, same⟩ | ⟨-, before⟩
    · cases same
      exact resetting
    · exact inForce.resetting other at_pc before
  · intro other marking
    rcases of_update (· = some OpPc.resetMark) marking with ⟨-, same⟩ | ⟨-, before⟩
    · exact effective (.inl (Option.some.inj same))
    · exact zeroed (inForce.stored other before)
  · intro other result done
    rcases of_update (· = some (OpPc.done result)) done with ⟨-, same⟩ | ⟨-, before⟩
    · exact effective (.inr ⟨result, Option.some.inj same⟩)
    · exact zeroed (inForce.returned other result before)

private theorem InForce.reset_step {call : κ} {pc after : OpPc} {cell : Option Cell} (inForce : InForce state)
    (published : Published state (.reset call : TouchEvent ι κ)) (at_pc : state.resets call = some pc)
    (taken : opStep (.reset quotaId) ⟨false, false⟩ none state.cell pc = some (cell, after)) :
    InForce { state with cell, resets := Function.update state.resets call (some after) } := by
  have resetting := inForce.resetting call pc at_pc
  cases pc with
  | cell =>
    cases taken
    refine inForce.reset_moves ?_ ?_ trivial ?_
    · intro same
      simp [same]
    · intro ⟨dirty, same⟩
      exact ⟨dirty, by simp [same]⟩
    · simp [Op.enter]
  | resetGet =>
    simp only [opStep] at taken
    split at taken <;> cases taken <;> exact inForce.reset_moves id id trivial (by simp)
  | resetSet =>
    simp only [opStep] at taken
    split at taken <;> cases taken
    next empty =>
      refine inForce.reset_moves ?_ ?_ trivial ?_
      · intro initialising
        rw [empty] at initialising
        cases initialising
      · exact fun _ => ⟨true, rfl⟩
      · exact fun _ => ⟨true, rfl⟩
    next => exact inForce.reset_moves id id trivial (by simp)
  | resetAgain =>
    obtain ⟨counter, found⟩ := published at_pc
    simp only [opStep, found] at taken
    cases taken
    rw [← found]
    exact inForce.reset_moves id id trivial (by simp)
  | resetStore =>
    simp only [opStep] at taken
    split at taken <;> cases taken
    next counter found =>
      refine inForce.reset_moves ?_ ?_ trivial ?_
      · intro initialising
        rw [found] at initialising
        cases initialising
      · exact fun _ => ⟨counter.dirty, rfl⟩
      · exact fun _ => ⟨counter.dirty, rfl⟩
  | resetMark =>
    obtain ⟨dirty, zero⟩ := inForce.stored call at_pc
    simp only [opStep, zero] at taken
    cases taken
    refine inForce.reset_moves ?_ ?_ trivial ?_
    · intro initialising
      rw [zero] at initialising
      cases initialising
    · exact fun _ => ⟨true, rfl⟩
    · exact fun _ => ⟨true, rfl⟩
  | done result => cases taken
  | init | loading | publishing _ | delta _ => exact resetting.elim

end Resets

variable [DecidableEq ι] [DecidableEq κ]

theorem InForce.step {event : TouchEvent ι κ} (inForce : InForce state) (published : Published state event)
    (taken : touchStep quotaId state event = some next) : InForce next := by
  cases event with
  | invokeLoad load =>
    simp only [touchStep] at taken
    split at taken <;> cases taken
    apply inForce.load_moves id
    · intro other different busy
      exact ⟨inForce.initialiser other busy, fun no => no⟩
    · exact False.elim
  | load load answer =>
    simp only [touchStep] at taken
    split at taken
    next => cases taken
    next pc at_pc =>
      obtain ⟨⟨cell, after⟩, moved, rfl⟩ := Option.map_eq_some_iff.mp taken
      exact inForce.load_step at_pc moved
  | invokeReset call =>
    simp only [touchStep] at taken
    split at taken <;> cases taken
    exact inForce.reset_moves id id trivial (by simp)
  | reset call =>
    simp only [touchStep] at taken
    split at taken
    next => cases taken
    next pc at_pc =>
      obtain ⟨⟨cell, after⟩, moved, rfl⟩ := Option.map_eq_some_iff.mp taken
      exact inForce.reset_step published at_pc moved

/-- In a run where no reset looks again at a cell without its bucket, a reset that has
returned has zeroed the counter. -/
theorem published_resets_take_effect (quotaId : String) (known : Option (Option QuotaCounter)) (events : List (TouchEvent ι κ))
    (final : TouchState ι κ) (published : Guarded (touchStep quotaId) Published (touchStart known) events)
    (executed : run (touchStep quotaId) (touchStart known) events = some final) : ResetsTakeEffect final := by
  have inForce := guarded_invariant (fun _ _ _ holds allowed taken => InForce.step holds allowed taken)
    (InForce.initial known) published executed
  rintro ⟨call, returned⟩ - answer
  obtain ⟨dirty, zero⟩ := inForce.returned call _ returned
  rw [zero]
  rfl

/-- The load publishes what the tracker had before the reset looks again. -/
def timelyRun : List (TouchEvent Unit Unit) :=
  [.invokeLoad (), .load () .notFound, .load () .notFound, .invokeReset (), .reset (), .reset (), .reset (),
    .load () (.bytes 5), .load () .notFound, .reset (), .reset (), .reset (), .load () .notFound]

theorem timely_run_reads_zero : ∃ final : TouchState Unit Unit,
    run (touchStep "alice") (touchStart none) timelyRun = some final ∧
    final.resets () = some (.done (.ok 0)) ∧ final.loads () = some (.done (.ok 0)) ∧ ResetsTakeEffect final :=
  ⟨_, rfl, rfl, rfl, published_resets_take_effect "alice" none timelyRun _ (by decide) rfl⟩

/-- The reset runs from beginning to end while the load waits for the tracker. -/
def lostRun : List (TouchEvent Unit Unit) :=
  [.invokeLoad (), .load () .notFound, .load () .notFound, .invokeReset (), .reset (), .reset (), .reset (), .reset (),
    .load () (.bytes 5), .load () .notFound, .load () .notFound]

theorem reset_lost_to_slow_load : ¬∀ (quotaId : String) (known : Option (Option QuotaCounter))
    (events : List (TouchEvent Unit Unit)) (final : TouchState Unit Unit),
    run (touchStep quotaId) (touchStart known) events = some final → ResetsTakeEffect final := by
  intro always
  have effect := always "alice" none lostRun _ rfl
  have zero := effect ⟨(), rfl⟩ (fun _ => trivial) .notFound
  exact absurd zero (by decide)

end Vaulton.Proofs.QuotaReset
