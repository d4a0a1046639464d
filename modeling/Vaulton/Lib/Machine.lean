import Mathlib

/-! Runs of labelled machines. A step is a partial function of the state and an
event; everything the environment may choose stands in the event, so a list of
events determines the run and the proofs below are inductions over that list. -/

namespace Vaulton.Lib

universe u v w

variable {σ : Type u} {ε : Type v} {β : Type w} {step : σ → ε → Option σ}

/-- The state after a list of events, `none` when one of them is not enabled. -/
def run (step : σ → ε → Option σ) (state : σ) : List ε → Option σ
  | [] => some state
  | event :: rest => (step state event).bind fun next => run step next rest

@[simp] theorem run_nil (state : σ) : run step state [] = some state := rfl

theorem run_cons {state final : σ} {event : ε} {rest : List ε} :
    run step state (event :: rest) = some final ↔
      ∃ next, step state event = some next ∧ run step next rest = some final := by
  simp [run, Option.bind_eq_some_iff]

theorem run_append {state final : σ} {before after : List ε} :
    run step state (before ++ after) = some final ↔
      ∃ middle, run step state before = some middle ∧ run step middle after = some final := by
  induction before generalizing state with
  | nil => simp
  | cons event rest ih =>
    simp only [List.cons_append, run_cons, ih]
    constructor
    · intro ⟨next, taken, middle, first, last⟩
      exact ⟨middle, ⟨next, taken, first⟩, last⟩
    · intro ⟨middle, ⟨next, taken, first⟩, last⟩
      exact ⟨next, taken, middle, first, last⟩

theorem run_concat {state final : σ} {before : List ε} {event : ε} :
    run step state (before ++ [event]) = some final ↔
      ∃ middle, run step state before = some middle ∧ step middle event = some final := by
  rw [run_append]
  simp [run_cons]

/-- The history rule: a property of the events so far and the state they lead to
holds of a whole run when it holds at the start and every enabled step keeps it. -/
theorem run_history (property : List ε → σ → Prop) {start : σ} (first : property [] start)
    (kept : ∀ before state event next, run step start before = some state → property before state →
      step state event = some next → property (before ++ [event]) next)
    {events : List ε} {final : σ} (executed : run step start events = some final) :
    property events final := by
  induction events using List.reverseRecOn generalizing final with
  | nil =>
    cases executed
    exact first
  | append_singleton before event ih =>
    obtain ⟨middle, prior, taken⟩ := run_concat.mp executed
    exact kept before middle event final prior (ih prior) taken

/-- The invariant rule, for properties of the state alone. -/
theorem run_invariant (property : σ → Prop)
    (kept : ∀ state event next, property state → step state event = some next → property next)
    {start final : σ} {events : List ε} (first : property start)
    (executed : run step start events = some final) : property final :=
  run_history (fun _ state => property state) first
    (fun _ state event next _ holds taken => kept state event next holds taken) executed

/-- Every step of the run meets `guard` in the state it is taken from. -/
def Guarded (step : σ → ε → Option σ) (guard : σ → ε → Prop) (state : σ) : List ε → Prop
  | [] => True
  | event :: rest => guard state event ∧ ∀ next, step state event = some next → Guarded step guard next rest

instance Guarded.decidable {guard : σ → ε → Prop} [∀ state event, Decidable (guard state event)] :
    (state : σ) → (events : List ε) → Decidable (Guarded step guard state events)
  | _, [] => .isTrue trivial
  | state, event :: rest =>
    match taken : step state event with
    | none => decidable_of_iff (guard state event) (by simp [Guarded, taken])
    | some next =>
      have : Decidable (Guarded step guard next rest) := Guarded.decidable next rest
      decidable_of_iff (guard state event ∧ Guarded step guard next rest) (by simp [Guarded, taken])

theorem guarded_cons {guard : σ → ε → Prop} {state next : σ} {event : ε} {rest : List ε} (allowed : guard state event)
    (taken : step state event = some next) (later : Guarded step guard next rest) :
    Guarded step guard state (event :: rest) := by
  refine ⟨allowed, ?_⟩
  intro other moved
  cases taken.symm.trans moved
  exact later

/-- The history rule for runs whose steps all meet a guard. -/
theorem guarded_history {guard : σ → ε → Prop} (property : List ε → σ → Prop) {start : σ} (first : property [] start)
    (kept : ∀ before state event next, run step start before = some state → property before state →
      guard state event → step state event = some next → property (before ++ [event]) next)
    {events : List ε} {final : σ} (guarded : Guarded step guard start events)
    (executed : run step start events = some final) : property events final := by
  induction events generalizing start property with
  | nil =>
    cases executed
    exact first
  | cons event rest ih =>
    obtain ⟨next, taken, later⟩ := run_cons.mp executed
    refine ih (fun before state => property (event :: before) state) (kept [] start event next rfl first guarded.1 taken) ?_
      (guarded.2 next taken) later
    intro before state last final prior holds allowed moved
    exact kept (event :: before) state last final (run_cons.mpr ⟨next, taken, prior⟩) holds allowed moved

/-- The invariant rule for runs whose steps all meet a guard. -/
theorem guarded_invariant {guard : σ → ε → Prop} {property : σ → Prop}
    (kept : ∀ state event next, property state → guard state event →
      step state event = some next → property next)
    {start final : σ} {events : List ε} (first : property start)
    (guarded : Guarded step guard start events) (executed : run step start events = some final) :
    property final :=
  guarded_history (fun _ state => property state) first
    (fun _ state event next _ holds allowed taken => kept state event next holds allowed taken) guarded executed

theorem guarded_of_forall {guard : σ → ε → Prop} {start : σ} {events : List ε} (all : ∀ event ∈ events, ∀ state, guard state event) :
    Guarded step guard start events := by
  induction events generalizing start with
  | nil => trivial
  | cons event rest ih =>
    refine ⟨all event List.mem_cons_self start, ?_⟩
    intro next _
    exact ih fun other member => all other (List.mem_cons_of_mem _ member)

/-- While the goal is not met, some step that the guard allows keeps the property and lowers
the measure: then a run of such steps reaches the goal. -/
theorem guarded_run_reaches {guard : σ → ε → Prop} (property goal : σ → Prop) (measure : σ → Nat)
    (progress : ∀ state, property state → ¬goal state → ∃ event next, guard state event ∧
      step state event = some next ∧ property next ∧ measure next < measure state) {start : σ} (first : property start) :
    ∃ events final, Guarded step guard start events ∧ run step start events = some final ∧ property final ∧ goal final := by
  induction size : measure start using Nat.strong_induction_on generalizing start with
  | _ size ih =>
    by_cases reached : goal start
    · exact ⟨[], start, trivial, rfl, first, reached⟩
    · obtain ⟨event, next, allowed, taken, kept, less⟩ := progress start first reached
      obtain ⟨rest, final, guarded, executed, holds, there⟩ := ih (measure next) (size ▸ less) kept rfl
      exact ⟨event :: rest, final, guarded_cons allowed taken guarded, run_cons.mpr ⟨next, taken, executed⟩, holds, there⟩

theorem guarded_and {first second : σ → ε → Prop} {start : σ} {events : List ε}
    (left : Guarded step first start events) (right : Guarded step second start events) :
    Guarded step (fun state event => first state event ∧ second state event) start events := by
  induction events generalizing start with
  | nil => trivial
  | cons event rest ih =>
    exact ⟨⟨left.1, right.1⟩, fun next taken => ih (left.2 next taken) (right.2 next taken)⟩

/-- What an observer sees along a run: `observe` is asked before every event. -/
def collect (step : σ → ε → Option σ) (observe : σ → ε → Option β) (state : σ) : List ε → List β
  | [] => []
  | event :: rest =>
    (observe state event).toList ++
      match step state event with
      | some next => collect step observe next rest
      | none => []

theorem collect_concat {observe : σ → ε → Option β} {state middle final : σ} {before : List ε} {event : ε}
    (executed : run step state before = some middle) (taken : step middle event = some final) :
    collect step observe state (before ++ [event]) =
      collect step observe state before ++ (observe middle event).toList := by
  induction before generalizing state with
  | nil =>
    cases executed
    simp [collect, taken]
  | cons first rest ih =>
    obtain ⟨next, moved, later⟩ := run_cons.mp executed
    simp [collect, moved, ih later]

/-- `event` is taken from `state` to `next` somewhere in the run. -/
def Occurs (step : σ → ε → Option σ) (start : σ) (events : List ε) (state : σ) (event : ε) (next : σ) : Prop :=
  ∃ before after, events = before ++ event :: after ∧ run step start before = some state ∧
    step state event = some next

/-- The run passes through `state`. -/
def Visits (step : σ → ε → Option σ) (start : σ) (events : List ε) (state : σ) : Prop :=
  ∃ before after, events = before ++ after ∧ run step start before = some state

theorem Occurs.concat {start state next : σ} {events : List ε} {event last : ε}
    (occurs : Occurs step start events state event next) :
    Occurs step start (events ++ [last]) state event next := by
  obtain ⟨before, after, rfl, executed, taken⟩ := occurs
  exact ⟨before, after ++ [last], by simp, executed, taken⟩

theorem Occurs.last {start state next : σ} {events : List ε} {event : ε}
    (executed : run step start events = some state) (taken : step state event = some next) :
    Occurs step start (events ++ [event]) state event next :=
  ⟨events, [], rfl, executed, taken⟩

theorem Occurs.of_concat {start middle final state next : σ} {events : List ε} {last event : ε}
    (executed : run step start events = some middle) (taken : step middle last = some final)
    (occurs : Occurs step start (events ++ [last]) state event next) :
    Occurs step start events state event next ∨ state = middle ∧ event = last ∧ next = final := by
  obtain ⟨before, after, same, prior, moved⟩ := occurs
  rcases List.eq_nil_or_concat after with rfl | ⟨rest, other, rfl⟩
  · obtain ⟨rfl, equal⟩ := List.append_inj' same rfl
    cases equal
    rw [executed] at prior
    cases prior
    rw [taken] at moved
    cases moved
    exact .inr ⟨rfl, rfl, rfl⟩
  · rw [List.concat_eq_append, ← List.cons_append, ← List.append_assoc] at same
    obtain ⟨rfl, -⟩ := List.append_inj' same rfl
    exact .inl ⟨before, rest, rfl, prior, moved⟩

theorem guarded_append {guard : σ → ε → Prop} {start : σ} {before after : List ε}
    (guarded : Guarded step guard start (before ++ after)) :
    Guarded step guard start before ∧
      ∀ state, run step start before = some state → Guarded step guard state after := by
  induction before generalizing start with
  | nil =>
    refine ⟨trivial, ?_⟩
    intro state equal
    cases equal
    exact guarded
  | cons event rest ih =>
    refine ⟨⟨guarded.1, fun next taken => (ih (guarded.2 next taken)).1⟩, ?_⟩
    intro state executed
    obtain ⟨next, taken, later⟩ := run_cons.mp executed
    exact (ih (guarded.2 next taken)).2 state later

theorem guard_of_occurs {guard : σ → ε → Prop} {start state next : σ} {events : List ε} {event : ε}
    (guarded : Guarded step guard start events) (occurs : Occurs step start events state event next) : guard state event := by
  obtain ⟨before, after, rfl, executed, -⟩ := occurs
  exact ((guarded_append guarded).2 state executed).1

/-- At every step of a guarded run the invariant holds on both sides, and the guard
held before it. -/
theorem guarded_occurs {guard : σ → ε → Prop} {property : σ → Prop}
    (kept : ∀ state event next, property state → guard state event →
      step state event = some next → property next)
    {start state next : σ} {events : List ε} {event : ε} (first : property start)
    (guarded : Guarded step guard start events) (occurs : Occurs step start events state event next) :
    property state ∧ guard state event ∧ property next := by
  obtain ⟨before, after, rfl, executed, taken⟩ := occurs
  obtain ⟨prior, rest⟩ := guarded_append guarded
  have holds := guarded_invariant kept first prior executed
  have allowed := (rest state executed).1
  exact ⟨holds, allowed, kept state event next holds allowed taken⟩

theorem guarded_of_occurs {guard : σ → ε → Prop} {start final : σ} {events : List ε}
    (executed : run step start events = some final)
    (all : ∀ state event next, Occurs step start events state event next → guard state event) :
    Guarded step guard start events := by
  induction events generalizing start with
  | nil => trivial
  | cons event rest ih =>
    obtain ⟨next, taken, later⟩ := run_cons.mp executed
    refine guarded_cons (all start event next ⟨[], rest, rfl, rfl, taken⟩) taken (ih later ?_)
    rintro state other following ⟨before, after, rfl, reached, moved⟩
    exact all state other following ⟨event :: before, after, rfl, run_cons.mpr ⟨next, taken, reached⟩, moved⟩

theorem Visits.concat {start state : σ} {events : List ε} {last : ε}
    (visits : Visits step start events state) : Visits step start (events ++ [last]) state := by
  obtain ⟨before, after, rfl, executed⟩ := visits
  exact ⟨before, after ++ [last], by simp, executed⟩

theorem Visits.last {start state : σ} {events : List ε} {event : ε}
    (executed : run step start events = some state) : Visits step start (events ++ [event]) state :=
  ⟨events, [event], rfl, executed⟩

/-- What holds at the position of some caller after one caller has moved holds of the
position that one moved to, or held before. -/
theorem of_update {ι : Type u} {α : Type v} [DecidableEq ι] {positions : ι → α} {moved other : ι} {position : α}
    (property : α → Prop) (holds : property (Function.update positions moved position other)) :
    other = moved ∧ property position ∨ other ≠ moved ∧ property (positions other) := by
  by_cases same : other = moved
  · subst other
    rw [Function.update_self] at holds
    exact .inl ⟨rfl, holds⟩
  · rw [Function.update_of_ne same] at holds
    exact .inr ⟨same, holds⟩

theorem forall_update {ι : Type u} {α : Type v} [DecidableEq ι] {positions : ι → α} {moved : ι} {position : α}
    (property : ι → α → Prop) (holds : ∀ other, property other (positions other)) (here : property moved position) :
    ∀ other, property other (Function.update positions moved position other) := by
  rw [Function.forall_update_iff]
  exact ⟨here, fun other _ => holds other⟩

/-- A property of some caller's position survives the move of one caller that keeps it. -/
theorem exists_update {ι : Type u} {α : Type v} [DecidableEq ι] {positions : ι → α} {moved : ι} {position : α}
    (property : α → Prop) (holds : ∃ other, property (positions other))
    (keeps : property (positions moved) → property position) :
    ∃ other, property (Function.update positions moved position other) := by
  rw [Function.exists_update_iff positions fun _ => property]
  obtain ⟨other, here⟩ := holds
  by_cases same : other = moved
  · exact .inl (keeps (same ▸ here))
  · exact .inr ⟨other, same, here⟩

end Vaulton.Lib
