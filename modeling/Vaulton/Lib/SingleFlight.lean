import Vaulton.Lib.Machine

/-! A cell that callers fill under a lock, after looking into it once more (double-checked
locking). Entries may be removed at any time. However the callers interleave, a value is
computed again only after one was removed. A caller that dies with the lock leaves it
stuck. -/

namespace Vaulton.Lib

universe u v

inductive Holder (ι : Type u) where
  | free
  | held (caller : ι)
  /-- The caller died and nobody gets the lock again. -/
  | stuck
  deriving DecidableEq

inductive FlightPc (ν : Type v) where
  | outside
  | holding
  /-- The cell was empty when the caller looked under the lock. -/
  | missed
  | computed (value : ν)
  deriving DecidableEq

structure Flight (ι : Type u) (ν : Type v) where
  cell : Option ν
  lock : Holder ι
  pcs : ι → FlightPc ν

inductive FlightEvent (ι : Type u) (ν : Type v) where
  | acquire (caller : ι)
  | miss (caller : ι)
  | compute (caller : ι) (value : ν)
  | insert (caller : ι)
  | release (caller : ι)
  | abandon (caller : ι)
  | remove

variable {ι : Type u} {ν : Type v} [DecidableEq ι]

def flightStart : Flight ι ν := ⟨none, .free, fun _ => .outside⟩

def Flight.goto (flight : Flight ι ν) (caller : ι) (pc : FlightPc ν) : Flight ι ν :=
  { flight with pcs := Function.update flight.pcs caller pc }

/-- A caller leaves with nothing computed. -/
def Flight.leave (flight : Flight ι ν) (caller : ι) (lock : Holder ι) : Option (Flight ι ν) :=
  match flight.pcs caller with
  | .holding | .missed => some { flight.goto caller .outside with lock }
  | .outside | .computed _ => none

def flightStep (flight : Flight ι ν) : FlightEvent ι ν → Option (Flight ι ν)
  | .acquire caller =>
    match flight.lock, flight.pcs caller with
    | .free, .outside => some { flight.goto caller .holding with lock := .held caller }
    | _, _ => none
  | .miss caller =>
    match flight.cell, flight.pcs caller with
    | none, .holding => some (flight.goto caller .missed)
    | _, _ => none
  | .compute caller value =>
    match flight.pcs caller with
    | .missed => some (flight.goto caller (.computed value))
    | _ => none
  | .insert caller =>
    match flight.pcs caller with
    | .computed value => some { flight.goto caller .holding with cell := some value }
    | _ => none
  | .release caller => flight.leave caller .free
  | .abandon caller => flight.leave caller .stuck
  | .remove => some { flight with cell := none }

def computedBy (flight : Flight ι ν) : FlightEvent ι ν → Option ν
  | .compute caller value =>
    match flight.pcs caller with
    | .missed => some value
    | _ => none
  | _ => none

def removedBy (flight : Flight ι ν) : FlightEvent ι ν → Option ν
  | .remove => flight.cell
  | _ => none

/-! ### One step -/

/-- Everything one step can do. -/
inductive FlightMove (flight : Flight ι ν) : FlightEvent ι ν → Flight ι ν → Prop where
  | acquired {caller : ι} (at_pc : flight.pcs caller = .outside) (free : flight.lock = .free) :
      FlightMove flight (.acquire caller) { flight.goto caller .holding with lock := .held caller }
  | missed {caller : ι} (at_pc : flight.pcs caller = .holding) (empty : flight.cell = none) :
      FlightMove flight (.miss caller) (flight.goto caller .missed)
  | computed {caller : ι} (value : ν) (at_pc : flight.pcs caller = .missed) :
      FlightMove flight (.compute caller value) (flight.goto caller (.computed value))
  | inserted {caller : ι} {value : ν} (at_pc : flight.pcs caller = .computed value) :
      FlightMove flight (.insert caller) { flight.goto caller .holding with cell := some value }
  | released {caller : ι} (at_pc : flight.pcs caller = .holding ∨ flight.pcs caller = .missed) :
      FlightMove flight (.release caller) { flight.goto caller .outside with lock := .free }
  | abandoned {caller : ι} (at_pc : flight.pcs caller = .holding ∨ flight.pcs caller = .missed) :
      FlightMove flight (.abandon caller) { flight.goto caller .outside with lock := .stuck }
  | removed : FlightMove flight .remove { flight with cell := none }

variable {flight next : Flight ι ν} {event : FlightEvent ι ν}

theorem leave_cases {caller : ι} {lock : Holder ι} (taken : flight.leave caller lock = some next) :
    (flight.pcs caller = .holding ∨ flight.pcs caller = .missed) ∧ next = { flight.goto caller .outside with lock } := by
  unfold Flight.leave at taken
  split at taken
  next at_pc =>
    cases taken
    exact ⟨.inl at_pc, rfl⟩
  next at_pc =>
    cases taken
    exact ⟨.inr at_pc, rfl⟩
  all_goals cases taken

theorem flightStep_move (taken : flightStep flight event = some next) : FlightMove flight event next := by
  cases event with
  | acquire caller =>
    simp only [flightStep] at taken
    split at taken
    next free at_pc =>
      cases taken
      exact .acquired at_pc free
    next => cases taken
  | miss caller =>
    simp only [flightStep] at taken
    split at taken
    next empty at_pc =>
      cases taken
      exact .missed at_pc empty
    next => cases taken
  | compute caller value =>
    simp only [flightStep] at taken
    split at taken
    next at_pc =>
      cases taken
      exact .computed value at_pc
    next => cases taken
  | insert caller =>
    simp only [flightStep] at taken
    split at taken
    next value at_pc =>
      cases taken
      exact .inserted at_pc
    next => cases taken
  | release caller =>
    obtain ⟨at_pc, rfl⟩ := leave_cases taken
    exact .released at_pc
  | abandon caller =>
    obtain ⟨at_pc, rfl⟩ := leave_cases taken
    exact .abandoned at_pc
  | remove =>
    cases taken
    exact .removed

theorem FlightMove.taken (move : FlightMove flight event next) : flightStep flight event = some next := by
  cases move with
  | acquired at_pc free => simp [flightStep, at_pc, free]
  | missed at_pc empty => simp [flightStep, at_pc, empty]
  | computed value at_pc => simp [flightStep, at_pc]
  | inserted at_pc => simp [flightStep, at_pc]
  | released at_pc | abandoned at_pc => rcases at_pc with at_pc | at_pc <;> simp [flightStep, Flight.leave, at_pc]
  | removed => rfl

/-! ### Whole runs -/

/-- What holds after `computes` and `removals`. -/
structure Flown (computes removals : List ν) (flight : Flight ι ν) : Prop where
  holder : ∀ caller, flight.pcs caller ≠ .outside → flight.lock = .held caller
  empty : ∀ caller, flight.pcs caller = .missed ∨ (∃ value, flight.pcs caller = .computed value) → flight.cell = none
  known : ∀ value, flight.cell = some value → value ∈ computes
  fresh : ∀ caller value, flight.pcs caller = .computed value → value ∈ computes
  count : computes.length ≤ removals.length + 1
  spent : flight.cell = none → (∀ caller value, flight.pcs caller ≠ .computed value) → computes.length ≤ removals.length

omit [DecidableEq ι] in
theorem Flown.initial : Flown [] [] (flightStart : Flight ι ν) where
  holder := fun _ inside => absurd rfl inside
  empty := fun _ _ => rfl
  known := nofun
  fresh := nofun
  count := Nat.zero_le _
  spent := fun _ _ => Nat.le_refl _

section Flown

variable {computes removals : List ν}

omit [DecidableEq ι] in
theorem Flown.alone (flown : Flown computes removals flight) {first second : ι} (one : flight.pcs first ≠ .outside)
    (two : flight.pcs second ≠ .outside) : first = second := by
  have held := (flown.holder first one).symm.trans (flown.holder second two)
  cases held
  rfl

private theorem Flown.goto (flown : Flown computes removals flight) {caller : ι} {pc : FlightPc ν} {lock : Holder ι}
    (mine : ∀ other, other ≠ caller → flight.pcs other = .outside) (holder : pc ≠ .outside → lock = .held caller)
    (empty : pc = .missed → flight.cell = none) (nothing : ∀ value, pc ≠ .computed value)
    (before : ∀ value, flight.pcs caller ≠ .computed value) :
    Flown computes removals { flight.goto caller pc with lock } where
  holder := by
    intro other inside
    rcases of_update (fun pc : FlightPc ν => pc ≠ .outside) inside with ⟨rfl, here⟩ | ⟨different, there⟩
    · exact holder here
    · exact absurd (mine other different) there
  empty := by
    intro other at_pc
    rcases of_update (fun pc : FlightPc ν => pc = .missed ∨ ∃ value, pc = .computed value) at_pc with
      ⟨rfl, here⟩ | ⟨different, there⟩
    · rcases here with missed | ⟨value, computed⟩
      · exact empty missed
      · exact absurd computed (nothing value)
    · exact flown.empty other there
  known := flown.known
  fresh := by
    intro other value at_pc
    rcases of_update (fun pc : FlightPc ν => pc = .computed value) at_pc with ⟨rfl, here⟩ | ⟨different, there⟩
    · exact absurd here (nothing value)
    · exact flown.fresh other value there
  count := flown.count
  spent := by
    intro gone none
    apply flown.spent gone
    intro other value at_pc
    by_cases same : other = caller
    · exact before value (same ▸ at_pc)
    · exact none other value ((Function.update_of_ne same _ _).trans at_pc)

omit [DecidableEq ι] in
private theorem Flown.others {caller : ι} {pc : FlightPc ν} (flown : Flown computes removals flight) (at_pc : flight.pcs caller = pc)
    (inside : pc ≠ .outside) : ∀ other, other ≠ caller → flight.pcs other = .outside := by
  intro other different
  by_contra active
  exact different (flown.alone active (by rwa [at_pc]))

private theorem Flown.compute {caller : ι} (flown : Flown computes removals flight) (value : ν) (at_pc : flight.pcs caller = .missed) :
    Flown (computes ++ [value]) removals (flight.goto caller (.computed value)) := by
  have empty := flown.empty caller (.inl at_pc)
  have mine := flown.others at_pc nofun
  have spent : computes.length ≤ removals.length := by
    apply flown.spent empty
    intro other found computed
    by_cases same : other = caller
    · rw [same, at_pc] at computed
      cases computed
    · rw [mine other same] at computed
      cases computed
  refine ⟨?_, fun _ _ => empty, ?_, ?_, ?_, ?_⟩
  · intro other inside
    rcases of_update (fun pc : FlightPc ν => pc ≠ .outside) inside with ⟨rfl, -⟩ | ⟨-, there⟩
    · exact flown.holder other (by simp [at_pc])
    · exact flown.holder other there
  · intro found stored
    exact List.mem_append_left _ (flown.known found stored)
  · intro other found computed
    rcases of_update (fun pc : FlightPc ν => pc = .computed found) computed with ⟨-, here⟩ | ⟨-, there⟩
    · cases here
      exact List.mem_append_right _ (List.mem_singleton_self _)
    · exact List.mem_append_left _ (flown.fresh other found there)
  · rw [List.length_append, List.length_singleton]
    omega
  · intro _ none
    exact absurd (Function.update_self ..) (none caller value)

private theorem Flown.insert {caller : ι} {value : ν} (flown : Flown computes removals flight)
    (at_pc : flight.pcs caller = .computed value) :
    Flown computes removals { flight.goto caller .holding with cell := some value } := by
  have mine := flown.others at_pc nofun
  refine ⟨?_, ?_, ?_, ?_, flown.count, nofun⟩
  · intro other inside
    rcases of_update (fun pc : FlightPc ν => pc ≠ .outside) inside with ⟨rfl, -⟩ | ⟨-, there⟩
    · exact flown.holder other (by simp [at_pc])
    · exact flown.holder other there
  · intro other missed
    rcases of_update (fun pc : FlightPc ν => pc = .missed ∨ ∃ value, pc = .computed value) missed with
      ⟨-, here⟩ | ⟨different, there⟩
    · rcases here with equal | ⟨found, equal⟩ <;> cases equal
    · rw [mine other different] at there
      rcases there with equal | ⟨found, equal⟩ <;> cases equal
  · intro found stored
    cases stored
    exact flown.fresh caller value at_pc
  · intro other found computed
    rcases of_update (fun pc : FlightPc ν => pc = .computed found) computed with ⟨-, here⟩ | ⟨different, there⟩
    · cases here
    · rw [mine other different] at there
      cases there

private theorem Flown.step (flown : Flown computes removals flight) (move : FlightMove flight event next) :
    Flown (computes ++ (computedBy flight event).toList) (removals ++ (removedBy flight event).toList) next := by
  cases move with
  | @acquired caller at_pc free =>
    have mine : ∀ other, other ≠ caller → flight.pcs other = .outside := by
      intro other _
      by_contra active
      cases (flown.holder other active).symm.trans free
    simp only [computedBy, removedBy, Option.toList_none, List.append_nil]
    exact flown.goto mine (fun _ => rfl) nofun nofun (by simp [at_pc])
  | @missed caller at_pc empty =>
    have lock := flown.holder caller (by simp [at_pc])
    simp only [computedBy, removedBy, Option.toList_none, List.append_nil]
    have kept : Flown computes removals { flight.goto caller .missed with lock := flight.lock } :=
      flown.goto (flown.others at_pc nofun) (fun _ => lock) (fun _ => empty) nofun (by simp [at_pc])
    exact kept
  | @computed caller value at_pc =>
    simp only [computedBy, removedBy, at_pc, Option.toList_none, Option.toList_some, List.append_nil]
    exact flown.compute value at_pc
  | @inserted caller value at_pc =>
    simp only [computedBy, removedBy, Option.toList_none, List.append_nil]
    exact flown.insert at_pc
  | @released caller at_pc =>
    have inside : flight.pcs caller ≠ .outside := by rcases at_pc with equal | equal <;> simp [equal]
    have before : ∀ value, flight.pcs caller ≠ .computed value := by rcases at_pc with equal | equal <;> simp [equal]
    simp only [computedBy, removedBy, Option.toList_none, List.append_nil]
    exact flown.goto (flown.others rfl inside) (fun active => absurd rfl active) nofun nofun before
  | @abandoned caller at_pc =>
    have inside : flight.pcs caller ≠ .outside := by rcases at_pc with equal | equal <;> simp [equal]
    have before : ∀ value, flight.pcs caller ≠ .computed value := by rcases at_pc with equal | equal <;> simp [equal]
    simp only [computedBy, removedBy, Option.toList_none, List.append_nil]
    exact flown.goto (flown.others rfl inside) (fun active => absurd rfl active) nofun nofun before
  | removed =>
    simp only [computedBy, removedBy, Option.toList_none, List.append_nil]
    have bound := flown.count
    refine ⟨flown.holder, fun _ _ => rfl, nofun, flown.fresh, ?_, ?_⟩
    · rw [List.length_append]
      omega
    · intro _ none
      cases cell : flight.cell with
      | none =>
        have spent := flown.spent cell none
        simpa using spent
      | some value => simpa using bound

end Flown

variable {events : List (FlightEvent ι ν)} {final : Flight ι ν}

def computes (events : List (FlightEvent ι ν)) : List ν := collect flightStep computedBy flightStart events

def removals (events : List (FlightEvent ι ν)) : List ν := collect flightStep removedBy flightStart events

/-- At most one value more is computed than is removed, and the cell holds one of them. -/
theorem flown_of_run (executed : run flightStep flightStart events = some final) :
    Flown (computes events) (removals events) final := by
  apply run_history (fun events flight => Flown (computes events) (removals events) flight) Flown.initial _ executed
  intro before flight event next reached flown taken
  have later := flown.step (flightStep_move taken)
  unfold computes removals at later ⊢
  rw [collect_concat reached taken, collect_concat reached taken]
  exact later

end Vaulton.Lib
