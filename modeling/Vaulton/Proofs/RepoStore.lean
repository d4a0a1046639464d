import Vaulton.Lib.Draining
import Vaulton.Lib.Projection
import Vaulton.RepoStore

/-! Repositories are created only where there is none, opened once for each cache entry
that goes, and nobody who waits for one waits forever. -/

namespace Vaulton.Proofs.RepoStore
open Vaulton.Lib Vaulton.Reconfiguration Vaulton.RepoStore

variable {Λ ι : Type} [DecidableEq Λ] [DecidableEq ι] {locate : RepoSource → Λ} {callers : ι → Caller}
  {state next final : RepoState Λ ι} {event : RepoEvent ι} {events before : List (RepoEvent ι)} {stored : Λ → Bool}

/-! ### One step -/

/-- Where a call may stand when the storage fails it. -/
def Working (pc : RepoPc) : Prop := pc = .probe ∨ pc = .init ∨ pc = .opening

/-- Everything one step can do. -/
inductive Move (locate : RepoSource → Λ) (callers : ι → Caller) (state : RepoState Λ ι) :
    RepoEvent ι → RepoState Λ ι → Prop where
  | called {call : ι} (at_pc : state.calls call = .absent) :
      Move locate callers state (.call call) (state.goto call (entry (callers call)))
  | hit {call : ι} {answer : Answer} {handle : Nat} (at_pc : state.calls call = .lookup)
      (cached : state.cached (callers call) = some handle) :
      Move locate callers state (.advance call answer) (state.goto call (.returned (.ok handle)))
  | unknown {call : ι} {answer : Answer} (at_pc : state.calls call = .lookup) :
      Move locate callers state (.advance call answer) (state.goto call .lock)
  | acquired {call : ι} {answer : Answer} {src : RepoSource} (at_pc : state.calls call = .lock)
      (key : (callers call).lockKey = some src) (free : state.locks src = .free) :
      Move locate callers state (.advance call answer) ((state.setLock (.held call) (some src)).goto call .check)
  | refused {call : ι} {answer : Answer} {src : RepoSource} (at_pc : state.calls call = .lock)
      (key : (callers call).lockKey = some src) (stuck : state.locks src = .stuck) :
      Move locate callers state (.advance call answer) (state.goto call (.returned (.error (callers call).poisonedError)))
  | found {call : ι} {answer : Answer} {handle : Nat} (at_pc : state.calls call = .check)
      (cached : state.cached (callers call) = some handle) :
      Move locate callers state (.advance call answer) (state.goto call ((callers call).exit (.ok handle)))
  | missed {call : ι} {answer : Answer} (at_pc : state.calls call = .check) (cached : state.cached (callers call) = none) :
      Move locate callers state (.advance call answer) (state.goto call .probe)
  | existing {call : ι} {answer : Answer} (at_pc : state.calls call = .probe) (alive : answer.panics = false) :
      Move locate callers state (.advance call answer) (state.goto call .opening)
  | missing {call : ι} {answer : Answer} (at_pc : state.calls call = .probe) (alive : answer.panics = false)
      (absent : state.stored (locate (callers call).src) = false) (allowed : (callers call).allowInit = true) :
      Move locate callers state (.advance call answer) (state.goto call .init)
  | created {call : ι} {answer : Answer} (at_pc : state.calls call = .init) (alive : answer.panics = false) :
      Move locate callers state (.advance call answer) ((state.create (locate (callers call).src)).goto call .opening)
  | opened {call : ι} {answer : Answer} (at_pc : state.calls call = .opening) (alive : answer.panics = false)
      (works : answer.error = none) :
      Move locate callers state (.advance call answer)
        ({ state with opened := state.opened + 1 }.goto call ((callers call).keep state.opened))
  | failed {call : ι} {answer : Answer} {error : VfsError} (left : Bool) (working : Working (state.calls call))
      (alive : answer.panics = false) (opening : state.calls call = .opening → answer.error ≠ none)
      (initialized : left = true → state.calls call = .init) :
      Move locate callers state (.advance call answer)
        ((state.afterInit (locate (callers call).src) left).goto call ((callers call).exit (.error error)))
  | panicked {call : ι} {answer : Answer} (left : Bool) (working : Working (state.calls call)) (dies : answer.panics = true)
      (initialized : left = true → state.calls call = .init) :
      Move locate callers state (.advance call answer)
        ((state.afterInit (locate (callers call).src) left).panic call (callers call))
  | inserted {call : ι} {answer : Answer} {handle : Nat} (at_pc : state.calls call = .insert handle) :
      Move locate callers state (.advance call answer) ((state.store handle (callers call)).goto call (.unlock (.ok handle)))
  | unlocked {call : ι} {answer : Answer} {result : Except VfsError Nat} (at_pc : state.calls call = .unlock result) :
      Move locate callers state (.advance call answer)
        ((state.setLock .free (callers call).lockKey).goto call (.returned result))
  | removedRepo (src : RepoSource) :
      Move locate callers state (.removeRepo src) { state with repos := Function.update state.repos src none }
  | removedVfsOp (src : RepoSource) :
      Move locate callers state (.removeVfsOp src) { state with repoVfsOps := Function.update state.repoVfsOps src none }

theorem probe_cases (present : Bool) (caller : Caller) (answer : Answer) :
    probe present caller answer = .opening ∨
    (probe present caller answer = .init ∧ present = false ∧ caller.allowInit = true) ∨
    ∃ error, probe present caller answer = caller.exit (.error error) := by
  unfold probe
  split
  · exact .inr (.inr ⟨_, rfl⟩)
  · split
    next => exact .inr (.inr ⟨_, rfl⟩)
    next => exact .inr (.inr ⟨_, rfl⟩)
    next => exact .inl rfl
    next answered _ =>
      have absent : present = false := by
        unfold repoExists at answered
        split at answered <;> cases answered
        rfl
      split
      next allowed => exact .inr (.inl ⟨rfl, absent, allowed⟩)
      next => exact .inr (.inr ⟨_, rfl⟩)

theorem probe_move {call : ι} {answer : Answer} (at_pc : state.calls call = .probe)
    (taken : advance locate state call (callers call) answer .probe = some next) :
    Move locate callers state (.advance call answer) next := by
  simp only [advance] at taken
  split at taken
  next dies =>
    cases taken
    exact .panicked false (.inl at_pc) dies nofun
  next alive =>
    have alive : answer.panics = false := Bool.not_eq_true _ ▸ alive
    cases taken
    rcases probe_cases (state.stored (locate (callers call).src)) (callers call) answer with
      leads | ⟨leads, absent, allowed⟩ | ⟨error, leads⟩
    · rw [leads]
      exact .existing at_pc alive
    · rw [leads]
      exact .missing at_pc alive absent allowed
    · rw [leads]
      refine .failed false (.inl at_pc) alive ?_ nofun
      rw [at_pc]
      exact nofun

theorem init_move {call : ι} {answer : Answer} (at_pc : state.calls call = .init)
    (taken : advance locate state call (callers call) answer .init = some next) :
    Move locate callers state (.advance call answer) next := by
  simp only [advance] at taken
  split at taken
  next dies =>
    cases taken
    exact .panicked answer.left (.inr (.inl at_pc)) dies fun _ => at_pc
  next alive =>
    have alive : answer.panics = false := Bool.not_eq_true _ ▸ alive
    split at taken
    next =>
      cases taken
      refine .failed answer.left (.inr (.inl at_pc)) alive ?_ fun _ => at_pc
      rw [at_pc]
      exact nofun
    next =>
      cases taken
      exact .created at_pc alive

theorem opening_move {call : ι} {answer : Answer} (at_pc : state.calls call = .opening)
    (taken : advance locate state call (callers call) answer .opening = some next) :
    Move locate callers state (.advance call answer) next := by
  simp only [advance] at taken
  split at taken
  next dies =>
    cases taken
    exact .panicked false (.inr (.inr at_pc)) dies nofun
  next alive =>
    have alive : answer.panics = false := Bool.not_eq_true _ ▸ alive
    split at taken
    next message fails =>
      cases taken
      exact .failed false (.inr (.inr at_pc)) alive (fun _ => by simp [fails]) nofun
    next works =>
      cases taken
      exact .opened at_pc alive works

theorem advance_move {call : ι} {answer : Answer}
    (taken : advance locate state call (callers call) answer (state.calls call) = some next) :
    Move locate callers state (.advance call answer) next := by
  cases at_pc : state.calls call with
  | absent | returned result =>
    rw [at_pc] at taken
    cases taken
  | lookup =>
    rw [at_pc] at taken
    simp only [advance] at taken
    split at taken
    next handle cached =>
      cases taken
      exact .hit at_pc cached
    next =>
      cases taken
      exact .unknown at_pc
  | lock =>
    rw [at_pc] at taken
    simp only [advance] at taken
    split at taken
    next => cases taken
    next src key =>
      split at taken
      next free =>
        cases taken
        exact .acquired at_pc key free
      next => cases taken
      next stuck =>
        cases taken
        exact .refused at_pc key stuck
  | check =>
    rw [at_pc] at taken
    simp only [advance] at taken
    split at taken
    next handle cached =>
      cases taken
      exact .found at_pc cached
    next cached =>
      cases taken
      exact .missed at_pc cached
  | probe =>
    rw [at_pc] at taken
    exact probe_move at_pc taken
  | init =>
    rw [at_pc] at taken
    exact init_move at_pc taken
  | opening =>
    rw [at_pc] at taken
    exact opening_move at_pc taken
  | insert handle =>
    rw [at_pc] at taken
    cases taken
    exact .inserted at_pc
  | unlock result =>
    rw [at_pc] at taken
    cases taken
    exact .unlocked at_pc

theorem repoStep_move (taken : repoStep locate callers state event = some next) : Move locate callers state event next := by
  cases event with
  | call call =>
    simp only [repoStep] at taken
    split at taken
    next at_pc =>
      cases taken
      exact .called at_pc
    next => cases taken
  | advance call answer => exact advance_move taken
  | removeRepo src =>
    cases taken
    exact .removedRepo src
  | removeVfsOp src =>
    cases taken
    exact .removedVfsOp src

/-! ### The locks -/

/-- Between taking the lock and giving it back. -/
def inside : RepoPc → Bool
  | .check | .probe | .init | .opening | .insert _ | .unlock _ => true
  | .absent | .lookup | .lock | .returned _ => false

/-- Where only a caller with a lock may stand. -/
def needsLock : RepoPc → Bool
  | .lookup | .lock | .check | .insert _ | .unlock _ => true
  | .absent | .probe | .init | .opening | .returned _ => false

structure Locked (callers : ι → Caller) (state : RepoState Λ ι) : Prop where
  holder : ∀ call src, (callers call).lockKey = some src → inside (state.calls call) = true → state.locks src = .held call
  taken : ∀ call src, state.locks src = .held call → (callers call).lockKey = some src ∧ inside (state.calls call) = true
  keyed : ∀ call, (callers call).lockKey = none → needsLock (state.calls call) = false

omit [DecidableEq Λ] [DecidableEq ι] in
theorem setLock_elsewhere {key : Option RepoSource} {src : RepoSource} (holder : Holder ι) (different : key ≠ some src) :
    (state.setLock holder key).locks src = state.locks src := by
  cases key with
  | none => rfl
  | some other => exact Function.update_of_ne (fun same => different (congrArg some same.symm)) _ _

theorem exit_needsLock {caller : Caller} {result : Except VfsError Nat} (job : caller.lockKey = none) :
    needsLock (caller.exit result) = false := by
  simp [Caller.exit, job, needsLock]

theorem keep_needsLock {caller : Caller} {handle : Nat} (job : caller.lockKey = none) :
    needsLock (caller.keep handle) = false := by
  simp [Caller.keep, job, needsLock]

/-- What a call does to the lock of its source: it is inside, it stays outside, or it
leaves. -/
inductive Turn (state next : RepoState Λ ι) (call : ι) (pc : RepoPc) (src : RepoSource) : Prop where
  | inside (active : RepoStore.inside pc = true) (held : next.locks src = .held call)
      (before : state.locks src = .free ∨ state.locks src = .held call)
  | outside (passive : RepoStore.inside pc = false) (same : next.locks src = state.locks src)
      (before : RepoStore.inside (state.calls call) = false)
  | leaves (passive : RepoStore.inside pc = false) (before : state.locks src = .held call)
      (released : ∀ holder, next.locks src ≠ .held holder)

omit [DecidableEq Λ] in
private theorem Locked.goto (locked : Locked callers state) (call : ι) (pc : RepoPc)
    (calls : next.calls = Function.update state.calls call pc)
    (elsewhere : ∀ src, (callers call).lockKey ≠ some src → next.locks src = state.locks src)
    (here : ∀ src, (callers call).lockKey = some src → Turn state next call pc src)
    (job : (callers call).lockKey = none → needsLock pc = false) : Locked callers next where
  holder := by
    rw [calls]
    intro other src key active
    by_cases same : other = call
    · subst other
      rw [Function.update_self] at active
      cases here src key with
      | inside _ held => exact held
      | outside passive | leaves passive => rw [passive] at active; cases active
    · rw [Function.update_of_ne same] at active
      have held := locked.holder other src key active
      by_cases shared : (callers call).lockKey = some src
      · cases here src shared with
        | inside _ _ before =>
          rcases before with free | mine
          · cases free.symm.trans held
          · cases mine.symm.trans held
            exact absurd rfl same
        | outside _ kept => exact kept.trans held
        | leaves _ before =>
          cases before.symm.trans held
          exact absurd rfl same
      · exact (elsewhere src shared).trans held
  taken := by
    rw [calls]
    intro other src held
    by_cases shared : (callers call).lockKey = some src
    · cases here src shared with
      | inside active mine =>
        cases mine.symm.trans held
        rw [Function.update_self]
        exact ⟨shared, active⟩
      | outside _ kept before =>
        obtain ⟨key, active⟩ := locked.taken other src (kept.symm.trans held)
        have different : other ≠ call := by
          rintro rfl
          rw [before] at active
          cases active
        rw [Function.update_of_ne different]
        exact ⟨key, active⟩
      | leaves _ _ released => exact absurd held (released other)
    · obtain ⟨key, active⟩ := locked.taken other src ((elsewhere src shared).symm.trans held)
      have different : other ≠ call := by
        rintro rfl
        exact shared key
      rw [Function.update_of_ne different]
      exact ⟨key, active⟩
  keyed := by
    rw [calls]
    intro other key
    by_cases same : other = call
    · subst other
      rw [Function.update_self]
      exact job key
    · rw [Function.update_of_ne same]
      exact locked.keyed other key

omit [DecidableEq Λ] in
private theorem Locked.walk (locked : Locked callers state) (call : ι) (pc : RepoPc)
    (calls : next.calls = Function.update state.calls call pc) (locks : next.locks = state.locks)
    (same : ∀ src, (callers call).lockKey = some src → inside pc = inside (state.calls call))
    (job : (callers call).lockKey = none → needsLock pc = false) : Locked callers next := by
  refine locked.goto call pc calls (fun src _ => by rw [locks]) ?_ job
  intro src key
  cases active : inside (state.calls call) with
  | true =>
    have held := locked.holder call src key active
    exact .inside ((same src key).trans active) ((congrFun locks src).trans held) (.inr held)
  | false => exact .outside ((same src key).trans active) (congrFun locks src) active

omit [DecidableEq Λ] in
private theorem Locked.depart (locked : Locked callers state) (call : ι) (result : Except VfsError Nat) (holder : Holder ι)
    (calls : next.calls = Function.update state.calls call (.returned result))
    (locks : next.locks = (state.setLock holder (callers call).lockKey).locks) (active : inside (state.calls call) = true)
    (released : ∀ other, holder ≠ .held other) : Locked callers next := by
  refine locked.goto call (.returned result) calls ?_ ?_ fun _ => rfl
  · intro src different
    rw [locks, setLock_elsewhere holder different]
  · intro src key
    refine .leaves rfl (locked.holder call src key active) ?_
    intro other held
    rw [locks, key, setLock_self] at held
    exact released other held

theorem exit_inside {caller : Caller} {src : RepoSource} {result : Except VfsError Nat} (key : caller.lockKey = some src) :
    inside (caller.exit result) = true := by
  simp [Caller.exit, key, inside]

theorem keep_inside {caller : Caller} {src : RepoSource} {handle : Nat} (key : caller.lockKey = some src) :
    inside (caller.keep handle) = true := by
  simp [Caller.keep, key, inside]

theorem Working.inside {pc : RepoPc} (working : Working pc) : inside pc = true := by
  rcases working with rfl | rfl | rfl <;> rfl

theorem Locked.step (locked : Locked callers state) (move : Move locate callers state event next) : Locked callers next := by
  have keyed {call : ι} (stands : needsLock (state.calls call) = true) : (callers call).lockKey ≠ none := by
    intro none
    rw [locked.keyed call none] at stands
    cases stands
  cases move with
  | @called call at_pc =>
    refine locked.walk call (entry (callers call)) rfl rfl ?_ ?_
    · intro src key
      cases caller : callers call <;> simp [caller, entry, inside, Caller.lockKey, at_pc] at key ⊢
    · intro key
      cases caller : callers call <;> simp [caller, entry, needsLock, Caller.lockKey] at key ⊢
  | @hit call answer handle at_pc cached => exact locked.walk call _ rfl rfl (fun _ _ => by rw [at_pc]; rfl) fun _ => rfl
  | @unknown call answer at_pc =>
    exact locked.walk call _ rfl rfl (fun _ _ => by rw [at_pc]; rfl) fun none => absurd none (keyed (by rw [at_pc]; rfl))
  | @acquired call answer src at_pc key free =>
    refine locked.goto call .check (by simp) ?_ ?_ ?_
    · intro other different
      exact setLock_elsewhere _ fun same => different (key.trans same)
    · intro other same
      cases key.symm.trans same
      exact .inside rfl (setLock_self ..) (.inl free)
    · intro none
      cases key.symm.trans none
  | @refused call answer src at_pc key stuck =>
    exact locked.walk call _ rfl rfl (fun _ _ => by rw [at_pc]; rfl) fun _ => rfl
  | @found call answer handle at_pc cached =>
    exact locked.walk call _ rfl rfl (fun _ key => by rw [at_pc, exit_inside key]; rfl) exit_needsLock
  | @missed call answer at_pc cached => exact locked.walk call _ rfl rfl (fun _ _ => by rw [at_pc]; rfl) fun _ => rfl
  | @existing call answer at_pc alive => exact locked.walk call _ rfl rfl (fun _ _ => by rw [at_pc]; rfl) fun _ => rfl
  | @missing call answer at_pc alive absent allowed =>
    exact locked.walk call _ rfl rfl (fun _ _ => by rw [at_pc]; rfl) fun _ => rfl
  | @created call answer at_pc alive => exact locked.walk call _ rfl rfl (fun _ _ => by rw [at_pc]; rfl) fun _ => rfl
  | @opened call answer at_pc alive works =>
    exact locked.walk call _ rfl rfl (fun _ key => by rw [at_pc, keep_inside key]; rfl) keep_needsLock
  | @failed call answer error left working alive opening initialized =>
    exact locked.walk call ((callers call).exit (.error error)) (by simp) (by simp)
      (fun _ key => by rw [working.inside, exit_inside key]) exit_needsLock
  | @panicked call answer left working dies initialized =>
    exact locked.depart call (.error (callers call).panicError) .stuck (by simp) (by simp)
      working.inside nofun
  | @inserted call answer handle at_pc =>
    exact locked.walk call (.unlock (.ok handle)) (by simp) (by simp) (fun _ _ => by rw [at_pc]; rfl)
      fun none => absurd none (keyed (by rw [at_pc]; rfl))
  | @unlocked call answer result at_pc =>
    exact locked.depart call result .free (by simp) rfl (by rw [at_pc]; rfl) nofun
  | removedRepo src | removedVfsOp src => exact ⟨locked.holder, locked.taken, locked.keyed⟩

omit [DecidableEq Λ] [DecidableEq ι] in
theorem Locked.initial (stored : Λ → Bool) : Locked callers (repoStart stored : RepoState Λ ι) :=
  ⟨nofun, nofun, fun _ _ => rfl⟩

theorem locked_of_run (executed : run (repoStep locate callers) (repoStart stored) events = some state) :
    Locked callers state :=
  run_invariant (Locked callers) (fun _ _ _ locked taken => locked.step (repoStep_move taken)) (Locked.initial stored) executed

/-! ### Nobody waits forever -/

def Finished (pc : RepoPc) : Prop := pc = .absent ∨ ∃ result, pc = .returned result

def rank : RepoPc → Nat
  | .absent | .returned _ => 0
  | .unlock _ => 1
  | .insert _ => 2
  | .opening => 3
  | .init => 4
  | .probe => 5
  | .check => 6
  | .lock => 7
  | .lookup => 8

theorem rank_exit (caller : Caller) (result : Except VfsError Nat) : rank (caller.exit result) ≤ 1 := by
  unfold Caller.exit
  split <;> simp [rank]

theorem rank_keep (caller : Caller) (handle : Nat) : rank (caller.keep handle) ≤ 2 := by
  unfold Caller.keep
  split <;> simp [rank]

/-- A step of a call lowers its rank and moves nobody else. -/
theorem advance_lowers {call : ι} {answer : Answer} (move : Move locate callers state (.advance call answer) next) :
    ∃ pc, next.calls = Function.update state.calls call pc ∧ rank pc < rank (state.calls call) := by
  cases move with
  | hit at_pc | unknown at_pc | refused at_pc | missed at_pc | existing at_pc | missing at_pc | created at_pc =>
    refine ⟨_, rfl, ?_⟩
    rw [at_pc]
    simp [rank]
  | acquired at_pc | inserted at_pc | unlocked at_pc =>
    refine ⟨_, by simp; rfl, ?_⟩
    rw [at_pc]
    simp [rank]
  | @found _ _ handle at_pc =>
    have low := rank_exit (callers call) (.ok handle)
    refine ⟨_, rfl, ?_⟩
    rw [at_pc]
    exact Nat.lt_of_le_of_lt low (by decide)
  | opened at_pc =>
    have low := rank_keep (callers call) state.opened
    refine ⟨_, rfl, ?_⟩
    rw [at_pc]
    exact Nat.lt_of_le_of_lt low (by decide)
  | @failed _ _ error left working =>
    have low := rank_exit (callers call) (.error error)
    refine ⟨(callers call).exit (.error error), by simp, ?_⟩
    rcases working with at_pc | at_pc | at_pc
    all_goals
      rw [at_pc]
      exact Nat.lt_of_le_of_lt low (by decide)
  | panicked left working =>
    refine ⟨.returned (.error (callers call).panicError), by simp [RepoState.panic], ?_⟩
    rcases working with at_pc | at_pc | at_pc
    all_goals
      rw [at_pc]
      simp [rank]

/-- Only the lock makes a call wait, whatever the storage answers. -/
theorem advance_enabled (locate : RepoSource → Λ) {call : ι} (answer : Answer) (unfinished : ¬Finished (state.calls call))
    (waits : state.calls call = .lock → ∃ src, (callers call).lockKey = some src ∧ ∀ holder, state.locks src ≠ .held holder) :
    ∃ next, repoStep locate callers state (.advance call answer) = some next := by
  cases at_pc : state.calls call with
  | absent => exact absurd (.inl at_pc) unfinished
  | returned result => exact absurd (.inr ⟨result, at_pc⟩) unfinished
  | lock =>
    obtain ⟨src, key, unheld⟩ := waits at_pc
    cases lock : state.locks src with
    | free => simp [repoStep, at_pc, advance, key, lock]
    | held holder => exact absurd lock (unheld holder)
    | stuck => simp [repoStep, at_pc, advance, key, lock]
  | lookup =>
    simp only [repoStep, at_pc, advance]
    split <;> exact ⟨_, rfl⟩
  | check =>
    simp only [repoStep, at_pc, advance]
    split <;> exact ⟨_, rfl⟩
  | probe =>
    simp only [repoStep, at_pc, advance]
    split <;> exact ⟨_, rfl⟩
  | init =>
    simp only [repoStep, at_pc, advance]
    repeat' split
    all_goals exact ⟨_, rfl⟩
  | opening =>
    simp only [repoStep, at_pc, advance]
    repeat' split
    all_goals exact ⟨_, rfl⟩
  | insert handle | unlock result =>
    simp only [repoStep, at_pc, advance]
    exact ⟨_, rfl⟩

/-- From every state that is reached, whatever the storage answers from then on and even if
it makes a call panic under a lock, the calls under way can all return. -/
theorem every_call_can_return [Fintype ι] (locate : RepoSource → Λ) (callers : ι → Caller) (stored : Λ → Bool)
    (events : List (RepoEvent ι)) (state : RepoState Λ ι)
    (executed : run (repoStep locate callers) (repoStart stored) events = some state)
    (answers : RepoState Λ ι → ι → Answer) :
    Drains (repoStep locate callers) (fun state event => ∃ call, event = .advance call (answers state call))
      (fun state => ∀ call, Finished (state.calls call)) state := by
  apply drains_of_rank (fun state : RepoState Λ ι => ∑ call, rank (state.calls call)) _ (locked_of_run executed)
  intro state locked unfinished
  -- The call that goes on is an unfinished one, or the holder of the lock it waits for.
  have goes : ∃ call, ¬Finished (state.calls call) ∧ (state.calls call = .lock →
      ∃ src, (callers call).lockKey = some src ∧ ∀ holder, state.locks src ≠ .held holder) := by
    obtain ⟨call, active⟩ := not_forall.mp unfinished
    by_cases waits : state.calls call = .lock
    · cases key : (callers call).lockKey with
      | none =>
        have stands := locked.keyed call key
        rw [waits] at stands
        cases stands
      | some src =>
        by_cases held : ∃ holder, state.locks src = .held holder
        · obtain ⟨holder, held⟩ := held
          have working := (locked.taken holder src held).2
          refine ⟨holder, ?_, ?_⟩
          · rintro (absent | ⟨result, returned⟩)
            · rw [absent] at working
              cases working
            · rw [returned] at working
              cases working
          · intro waiting
            rw [waiting] at working
            cases working
        · exact ⟨call, active, fun _ => ⟨src, key, fun holder equal => held ⟨holder, equal⟩⟩⟩
    · exact ⟨call, active, fun waiting => absurd waiting waits⟩
  obtain ⟨call, active, waits⟩ := goes
  obtain ⟨next, taken⟩ := advance_enabled locate (answers state call) active waits
  have move := repoStep_move taken
  obtain ⟨pc, calls, lower⟩ := advance_lowers move
  refine ⟨.advance call (answers state call), next, ⟨call, rfl⟩, taken, locked.step move, ?_⟩
  rw [calls]
  exact sum_rank_lt rank state.calls call pc lower

def disk : RepoSource := ⟨"fs".toList, [], "secret".toList⟩

/-- A client and a mount of one repository. -/
def clientAndMount : Bool → Caller
  | false => .getRepo disk
  | true => .buildMount disk false

def works : Answer := {}

/-- The mount waits for the lock that the client holds. -/
def mountWaits : List (RepoEvent Bool) :=
  [.call false, .call true, .advance false works, .advance false works, .advance true works]

theorem the_mount_comes_through : ∃ state,
    run (repoStep (fun _ => ()) clientAndMount) (repoStart fun _ => false) mountWaits = some state ∧
    state.locks disk = .held false ∧ state.calls true = .lock ∧
    Drains (repoStep (fun _ => ()) clientAndMount) (fun _ event => ∃ call, event = .advance call { panics := true })
      (fun state => ∀ call, Finished (state.calls call)) state :=
  ⟨_, rfl, rfl, rfl, every_call_can_return _ _ (fun _ => false) mountWaits _ rfl fun _ _ => { panics := true }⟩

/-! ### Creating a repository -/

/-- Only an `init` makes a repository appear. -/
theorem stored_cases (move : Move locate callers state event next) : next.stored = state.stored ∨
    ∃ call answer, event = .advance call answer ∧ state.calls call = .init ∧
      next.stored = Function.update state.stored (locate (callers call).src) true := by
  have leaves {call : ι} (answer : Answer) (left : Bool) (initialized : left = true → state.calls call = .init) :
      (state.afterInit (locate (callers call).src) left).stored = state.stored ∨ state.calls call = .init ∧
        (state.afterInit (locate (callers call).src) left).stored =
          Function.update state.stored (locate (callers call).src) true := by
    cases left with
    | false => exact .inl rfl
    | true => exact .inr ⟨initialized rfl, rfl⟩
  cases move with
  | @created call answer at_pc alive => exact .inr ⟨call, answer, rfl, at_pc, rfl⟩
  | @failed call answer error left working alive opening initialized =>
    rcases leaves answer left initialized with same | ⟨at_pc, changed⟩
    · exact .inl same
    · exact .inr ⟨call, answer, rfl, at_pc, changed⟩
  | @panicked call answer left working dies initialized =>
    rcases leaves answer left initialized with same | ⟨at_pc, changed⟩
    · left
      rw [RepoState.panic, goto_stored, setLock_stored]
      exact same
    · refine .inr ⟨call, answer, rfl, at_pc, ?_⟩
      rw [RepoState.panic, goto_stored, setLock_stored]
      exact changed
  | acquired | inserted | unlocked => exact .inl (by simp)
  | _ => exact .inl rfl

/-- A call comes to its `init` after a probe that found nothing. -/
theorem init_cases {call : ι} (move : Move locate callers state event next) (at_pc : next.calls call = .init) :
    state.calls call = .init ∧ (∀ answer, event ≠ .advance call answer) ∨
    (callers call).allowInit = true ∧ next.stored (locate (callers call).src) = false := by
  cases event with
  | call other =>
    cases move with
    | called absent =>
      rcases of_update (fun pc : RepoPc => pc = .init) at_pc with ⟨rfl, here⟩ | ⟨different, there⟩
      · cases caller : callers call <;> rw [caller] at here <;> cases here
      · exact .inl ⟨there, by simp⟩
  | advance other answer =>
    by_cases same : call = other
    · subst other
      right
      cases move with
      | missing _ _ absent allowed => exact ⟨allowed, absent⟩
      | found =>
        rw [goto_calls, Function.update_self] at at_pc
        unfold Caller.exit at at_pc
        split at at_pc <;> cases at_pc
      | opened =>
        rw [goto_calls, Function.update_self] at at_pc
        unfold Caller.keep at at_pc
        split at at_pc <;> cases at_pc
      | failed =>
        rw [goto_calls, Function.update_self] at at_pc
        unfold Caller.exit at at_pc
        split at at_pc <;> cases at_pc
      | panicked =>
        rw [RepoState.panic, goto_calls, Function.update_self] at at_pc
        cases at_pc
      | _ =>
        rw [goto_calls, Function.update_self] at at_pc
        cases at_pc
    · obtain ⟨pc, calls, -⟩ := advance_lowers move
      rw [calls, Function.update_of_ne same] at at_pc
      refine .inl ⟨at_pc, ?_⟩
      intro answer equal
      cases equal
      exact same rfl
  | removeRepo src =>
    cases move
    exact .inl ⟨at_pc, by simp⟩
  | removeVfsOp src =>
    cases move
    exact .inl ⟨at_pc, by simp⟩

/-- Somewhere in the run `other` created the repository that `call` was about to create:
both stood between their probe and their `init`, and no lock kept them apart. -/
structure Rival (locate : RepoSource → Λ) (callers : ι → Caller) (stored : Λ → Bool) (events : List (RepoEvent ι))
    (call other : ι) : Prop where
  different : other ≠ call
  sameLocation : locate (callers other).src = locate (callers call).src
  allowed : (callers other).allowInit = true
  apart : (callers other).lockKey ≠ (callers call).lockKey ∨ (callers call).lockKey = none
  created : ∃ before answer after,
    Occurs (repoStep locate callers) (repoStart stored) events before (.advance other answer) after ∧
    before.calls other = .init ∧ before.calls call = .init ∧
    before.stored (locate (callers call).src) = false ∧ after.stored (locate (callers call).src) = true

theorem Rival.concat {call other : ι} {last : RepoEvent ι} (rival : Rival locate callers stored events call other) :
    Rival locate callers stored (events ++ [last]) call other where
  different := rival.different
  sameLocation := rival.sameLocation
  allowed := rival.allowed
  apart := rival.apart
  created := by
    obtain ⟨before, answer, after, occurs, rest⟩ := rival.created
    exact ⟨before, answer, after, occurs.concat, rest⟩

/-- What the events so far say about the calls that are about to create a repository and
about the repositories there are. -/
structure Creations (locate : RepoSource → Λ) (callers : ι → Caller) (stored : Λ → Bool) (events : List (RepoEvent ι))
    (state : RepoState Λ ι) : Prop where
  allowed : ∀ call, state.calls call = .init → (callers call).allowInit = true
  init : ∀ call, state.calls call = .init → state.stored (locate (callers call).src) = false ∨
    ∃ other, Rival locate callers stored events call other
  creator : ∀ location, state.stored location = true → stored location = true ∨ ∃ call before answer after,
    Occurs (repoStep locate callers) (repoStart stored) events before (.advance call answer) after ∧
    before.calls call = .init ∧ (callers call).allowInit = true ∧ locate (callers call).src = location

private theorem Creations.step (creations : Creations locate callers stored before state) (locked : Locked callers state)
    (executed : run (repoStep locate callers) (repoStart stored) before = some state)
    (taken : repoStep locate callers state event = some next) : Creations locate callers stored (before ++ [event]) next := by
  have move := repoStep_move taken
  refine ⟨?_, ?_, ?_⟩
  · intro call at_pc
    rcases init_cases move at_pc with ⟨earlier, -⟩ | ⟨allowed, -⟩
    · exact creations.allowed call earlier
    · exact allowed
  · intro call at_pc
    rcases init_cases move at_pc with ⟨earlier, elsewhere⟩ | ⟨-, absent⟩
    · rcases creations.init call earlier with absent | ⟨other, rival⟩
      · rcases stored_cases move with same | ⟨other, answer, rfl, initializing, changed⟩
        · exact .inl (same ▸ absent)
        · by_cases here : locate (callers other).src = locate (callers call).src
          · have different : other ≠ call := fun same => elsewhere answer (same ▸ rfl)
            refine .inr ⟨other, different, here, creations.allowed other initializing, ?_, state, answer, next,
              Occurs.last executed taken, initializing, earlier, absent, ?_⟩
            · by_contra shared
              obtain ⟨sameKey, locks⟩ := not_or.mp shared
              obtain ⟨src, key⟩ := Option.ne_none_iff_exists'.mp locks
              have mine := locked.holder call src key (by rw [earlier]; rfl)
              have held := locked.holder other src ((not_not.mp sameKey).trans key) (by rw [initializing]; rfl)
              cases mine.symm.trans held
              exact different rfl
            · rw [changed, here, Function.update_self]
          · left
            rw [changed, Function.update_of_ne fun same => here same.symm]
            exact absent
      · exact .inr ⟨other, rival.concat⟩
    · exact .inl absent
  · intro location present
    have old (there : state.stored location = true) : stored location = true ∨ ∃ call first answer after,
        Occurs (repoStep locate callers) (repoStart stored) (before ++ [event]) first (.advance call answer) after ∧
        first.calls call = .init ∧ (callers call).allowInit = true ∧ locate (callers call).src = location := by
      rcases creations.creator location there with initially | ⟨call, first, answer, after, occurs, rest⟩
      · exact .inl initially
      · exact .inr ⟨call, first, answer, after, occurs.concat, rest⟩
    rcases stored_cases move with same | ⟨call, answer, rfl, initializing, changed⟩
    · exact old (same ▸ present)
    · by_cases here : locate (callers call).src = location
      · exact .inr ⟨call, state, answer, next, Occurs.last executed taken, initializing, creations.allowed call initializing, here⟩
      · rw [changed, Function.update_of_ne fun same => here same.symm] at present
        exact old present

theorem creations_of_run (executed : run (repoStep locate callers) (repoStart stored) events = some state) :
    Creations locate callers stored events state := by
  apply run_history (fun events state => Creations locate callers stored events state) _ _ executed
  · exact ⟨nofun, nofun, fun _ present => .inl present⟩
  · intro before middle event next reached creations taken
    exact creations.step (locked_of_run reached) reached taken

/-- A repository appears only through a call that may create it. A call is about to create
one that exists only when another call, which no lock kept away, has created it since the
probe; so where all calls that may create at a location go through one lock, `init` is
never called on a repository that exists. -/
theorem init_meets_only_rivals (locate : RepoSource → Λ) (callers : ι → Caller) (stored : Λ → Bool)
    (events : List (RepoEvent ι)) (final : RepoState Λ ι)
    (executed : run (repoStep locate callers) (repoStart stored) events = some final) :
    (∀ call, final.calls call = .init → (callers call).allowInit = true ∧
      (final.stored (locate (callers call).src) = false ∨ ∃ other, Rival locate callers stored events call other)) ∧
    (∀ src, (∀ call, locate (callers call).src = locate src → (callers call).allowInit = true → (callers call).lockKey = some src) →
      ∀ call, final.calls call = .init → locate (callers call).src = locate src → final.stored (locate src) = false) ∧
    (∀ location, stored location = false → final.stored location = true → ∃ call before answer after,
      Occurs (repoStep locate callers) (repoStart stored) events before (.advance call answer) after ∧
      before.calls call = .init ∧ (callers call).allowInit = true ∧ locate (callers call).src = location) := by
  have creations := creations_of_run executed
  refine ⟨fun call at_pc => ⟨creations.allowed call at_pc, creations.init call at_pc⟩, ?_, ?_⟩
  · intro src one call at_pc here
    rw [← here]
    rcases creations.init call at_pc with absent | ⟨other, rival⟩
    · exact absent
    · have mine := one call here (creations.allowed call at_pc)
      have theirs := one other (rival.sameLocation.trans here) rival.allowed
      rcases rival.apart with different | job
      · exact absurd (theirs.trans mine.symm) different
      · cases mine.symm.trans job
  · intro location absent present
    rcases creations.creator location present with initially | creator
    · rw [absent] at initially
      cases initially
    · exact creator

def jobAndMount : Bool → Caller
  | false => .createForJob disk true
  | true => .buildMount disk false

/-- The job and the mount find nothing, and the job creates the repository first. -/
def bothCreate : List (RepoEvent Bool) :=
  [.call true, .call false] ++ [true, true, true, true, false, false].map fun call => .advance call works

theorem the_mount_meets_a_rival : ∃ final,
    run (repoStep (fun _ => ()) jobAndMount) (repoStart fun _ => false) bothCreate = some final ∧
    final.calls true = .init ∧ final.stored () = true ∧
    (final.stored () = false ∨ ∃ other, Rival (fun _ => ()) jobAndMount (fun _ => false) bothCreate true other) :=
  ⟨_, rfl, rfl, rfl, ((init_meets_only_rivals (fun _ => ()) jobAndMount (fun _ => false) bothCreate _ rfl).1 true rfl).2⟩

/-! ### One open for each entry -/

/-- The two caches of opened repositories. -/
inductive CacheKind where
  | repos
  | repoVfsOps
  deriving DecidableEq

def CacheKind.entry (kind : CacheKind) (src : RepoSource) (state : RepoState Λ ι) : Option Nat :=
  match kind with
  | .repos => state.repos src
  | .repoVfsOps => state.repoVfsOps src

/-- The calls that look into the entry. -/
def CacheKind.usedBy (kind : CacheKind) (src : RepoSource) : Caller → Bool
  | .getRepo other => decide (kind = .repos ∧ other = src)
  | .buildMount other _ => decide (kind = .repoVfsOps ∧ other = src)
  | .createForJob _ _ => false

/-- Where a caller of the entry stands. -/
def phase : RepoPc → FlightPc Nat
  | .probe | .init | .opening | .unlock (.error _) => .missed
  | .check | .unlock (.ok _) => .holding
  | .insert handle => .computed handle
  | .absent | .lookup | .lock | .returned _ => .outside

/-- Others may hold the same lock for the other cache. -/
def flightPc (kind : CacheKind) (src : RepoSource) (caller : Caller) (pc : RepoPc) : FlightPc Nat :=
  if kind.usedBy src caller = true then phase pc
  else if caller.lockKey = some src ∧ inside pc = true then .holding
  else .outside

def flight (kind : CacheKind) (src : RepoSource) (callers : ι → Caller) (state : RepoState Λ ι) : Flight ι Nat where
  cell := kind.entry src state
  lock := state.locks src
  pcs := fun call => flightPc kind src (callers call) (state.calls call)

/-- What a step of a call is for the entry. -/
def flightMove (kind : CacheKind) (src : RepoSource) (caller : Caller) (state : RepoState Λ ι) (call : ι) (answer : Answer) :
    RepoPc → Option (FlightEvent ι Nat)
  | .lock => if caller.lockKey = some src ∧ state.locks src = .free then some (.acquire call) else none
  | .check => if kind.usedBy src caller = true ∧ kind.entry src state = none then some (.miss call) else none
  | .probe | .init =>
    if caller.lockKey = some src ∧ answer.panics = true then some (.abandon call) else none
  | .opening =>
    if caller.lockKey = some src ∧ answer.panics = true then some (.abandon call)
    else if kind.usedBy src caller = true ∧ answer.panics = false ∧ answer.error = none then some (.compute call state.opened)
    else none
  | .insert _ => if kind.usedBy src caller = true then some (.insert call) else none
  | .unlock _ => if caller.lockKey = some src then some (.release call) else none
  | .absent | .lookup | .returned _ => none

def flightTrace (kind : CacheKind) (src : RepoSource) (callers : ι → Caller) (state : RepoState Λ ι) :
    RepoEvent ι → Option (FlightEvent ι Nat)
  | .call _ => none
  | .advance call answer => flightMove kind src (callers call) state call answer (state.calls call)
  | .removeRepo other => if kind = .repos ∧ other = src then some .remove else none
  | .removeVfsOp other => if kind = .repoVfsOps ∧ other = src then some .remove else none

section Entry

variable {kind : CacheKind} {src : RepoSource} {call : ι}

theorem used_key {caller : Caller} (used : kind.usedBy src caller = true) : caller.lockKey = some src := by
  cases caller with
  | getRepo other | buildMount other readOnly =>
    simp only [CacheKind.usedBy, decide_eq_true_eq] at used
    exact congrArg some used.2
  | createForJob other allowInit => cases used

omit [DecidableEq Λ] [DecidableEq ι] in
theorem used_cached {caller : Caller} (used : kind.usedBy src caller = true) (state : RepoState Λ ι) :
    state.cached caller = kind.entry src state := by
  cases caller with
  | getRepo other | buildMount other readOnly =>
    simp only [CacheKind.usedBy, decide_eq_true_eq] at used
    obtain ⟨rfl, rfl⟩ := used
    rfl
  | createForJob other allowInit => cases used

theorem flightPc_elsewhere {caller : Caller} (different : caller.lockKey ≠ some src) (pc : RepoPc) :
    flightPc kind src caller pc = .outside := by
  unfold flightPc
  split
  next used => exact absurd (used_key used) different
  next => exact if_neg fun both => different both.1

theorem flightPc_outside {caller : Caller} {pc : RepoPc} (passive : inside pc = false) :
    flightPc kind src caller pc = .outside := by
  unfold flightPc
  split
  · cases pc <;> first | rfl | cases passive
  · simp [passive]

theorem flightPc_other {caller : Caller} {pc : RepoPc} (key : caller.lockKey = some src) (unused : kind.usedBy src caller ≠ true)
    (active : inside pc = true) : flightPc kind src caller pc = .holding := by simp [flightPc, key, unused, active]

theorem flightPc_used {caller : Caller} {pc : RepoPc} (used : kind.usedBy src caller = true) :
    flightPc kind src caller pc = phase pc := if_pos used

/-- A caller that neither enters nor leaves, and for a caller of the entry no step of it. -/
theorem flightPc_congr {caller : Caller} {first second : RepoPc}
    (active : caller.lockKey = some src → inside first = inside second)
    (same : kind.usedBy src caller = true → phase first = phase second) :
    flightPc kind src caller first = flightPc kind src caller second := by
  unfold flightPc
  split
  next used => exact same used
  next =>
    by_cases key : caller.lockKey = some src
    · rw [active key]
    · simp [key]

omit [DecidableEq Λ] in
theorem flight_pcs {pc : RepoPc} (calls : next.calls = Function.update state.calls call pc) :
    (flight kind src callers next).pcs =
      Function.update (flight kind src callers state).pcs call (flightPc kind src (callers call) pc) := by
  funext other
  by_cases same : other = call
  · subst other
    simp [flight, calls]
  · simp [flight, calls, same]

/-- Where the trace is silent the entry sees nothing, else it makes the move. -/
def Traces (kind : CacheKind) (src : RepoSource) (callers : ι → Caller) (state next : RepoState Λ ι) :
    Option (FlightEvent ι Nat) → Prop
  | none => flight kind src callers next = flight kind src callers state
  | some move => FlightMove (flight kind src callers state) move (flight kind src callers next)

omit [DecidableEq Λ] in
theorem flight_goto {pc : RepoPc} {cell : Option Nat} {lock : Holder ι} {place : FlightPc Nat}
    (calls : next.calls = Function.update state.calls call pc) (stored : kind.entry src next = cell)
    (locked : next.locks src = lock) (stands : flightPc kind src (callers call) pc = place) :
    flight kind src callers next = ⟨cell, lock, ((flight kind src callers state).goto call place).pcs⟩ := by
  have pcs : (flight kind src callers next).pcs = _ := flight_pcs calls
  rw [stands] at pcs
  rw [Flight.goto, ← pcs, ← stored, ← locked]
  rfl

omit [DecidableEq Λ] in
theorem flight_moves (pc : RepoPc) {cell : Option Nat} {lock : Holder ι} {place : FlightPc Nat} {move : FlightEvent ι Nat}
    (moved : FlightMove (flight kind src callers state) move ⟨cell, lock, ((flight kind src callers state).goto call place).pcs⟩)
    (calls : next.calls = Function.update state.calls call pc) (stored : kind.entry src next = cell)
    (locked : next.locks src = lock) (stands : flightPc kind src (callers call) pc = place) :
    Traces kind src callers state next (some move) := by
  have reached := flight_goto calls stored locked stands
  rw [← reached] at moved
  exact moved

omit [DecidableEq Λ] in
theorem flight_same (call : ι) (pc : RepoPc) (calls : next.calls = Function.update state.calls call pc)
    (stored : kind.entry src next = kind.entry src state) (locked : next.locks src = state.locks src)
    (stays : flightPc kind src (callers call) pc = flightPc kind src (callers call) (state.calls call)) :
    Traces kind src callers state next none := by
  have unmoved : Function.update (flight kind src callers state).pcs call (flightPc kind src (callers call) (state.calls call)) =
      (flight kind src callers state).pcs := Function.update_eq_self ..
  rw [Traces, flight_goto calls stored locked stays, Flight.goto, unmoved]
  rfl

omit [DecidableEq Λ] [DecidableEq ι] in
theorem entry_congr (kind : CacheKind) (src : RepoSource) (repos : next.repos = state.repos)
    (ops : next.repoVfsOps = state.repoVfsOps) : kind.entry src next = kind.entry src state := by
  cases kind
  · exact congrFun repos src
  · exact congrFun ops src

omit [DecidableEq Λ] [DecidableEq ι] in
theorem entry_store {caller : Caller} (handle : Nat) (state : RepoState Λ ι) :
    kind.entry src (state.store handle caller) =
      if kind.usedBy src caller = true then some handle else kind.entry src state := by
  have elsewhere {other : RepoSource} (table : RepoSource → Option Nat) :
      Function.update table other (some handle) src = if other = src then some handle else table src := by
    by_cases same : other = src
    · subst other
      simp
    · rw [if_neg same, Function.update_of_ne fun equal => same equal.symm]
  cases kind <;> cases caller <;>
    simp [CacheKind.entry, CacheKind.usedBy, RepoState.store, elsewhere]

theorem phase_exit {caller : Caller} {result : Except VfsError Nat} (key : caller.lockKey = some src) :
    caller.exit result = .unlock result := by simp [Caller.exit, key]

theorem phase_keep {caller : Caller} {handle : Nat} (key : caller.lockKey = some src) :
    caller.keep handle = .insert handle := by simp [Caller.keep, key]

omit [DecidableEq Λ] [DecidableEq ι] in
theorem flight_at {pc : RepoPc} {place : FlightPc Nat} (at_pc : state.calls call = pc)
    (stands : flightPc kind src (callers call) pc = place) : (flight kind src callers state).pcs call = place := by
  rw [← stands, ← at_pc]
  rfl

omit [DecidableEq Λ] [DecidableEq ι] in
theorem flight_inside {pc : RepoPc} (key : (callers call).lockKey = some src) (at_pc : state.calls call = pc)
    (active : inside pc = true) (nothing : ∀ handle, pc ≠ .insert handle) :
    (flight kind src callers state).pcs call = .holding ∨ (flight kind src callers state).pcs call = .missed := by
  rw [flight_at at_pc rfl]
  by_cases used : kind.usedBy src (callers call) = true
  · rw [flightPc_used used]
    cases pc with
    | probe | init | opening => exact .inr rfl
    | check => exact .inl rfl
    | unlock result => cases result <;> simp [phase]
    | insert handle => exact absurd rfl (nothing handle)
    | absent | lookup | lock | returned result => cases active
  · exact .inl (flightPc_other key used active)

variable {answer : Answer}

section Seen

omit [DecidableEq Λ]

theorem flight_acquired {other : RepoSource} (at_pc : state.calls call = .lock) (key : (callers call).lockKey = some other)
    (free : state.locks other = .free) :
    Traces kind src callers state ((state.setLock (.held call) (some other)).goto call .check)
      (flightTrace kind src callers state (.advance call answer)) := by
  have before : (flight kind src callers state).pcs call = .outside := flight_at at_pc (flightPc_outside rfl)
  simp only [flightTrace, flightMove, at_pc, key]
  by_cases here : other = src
  · subst other
    have stands : flightPc kind src (callers call) .check = .holding := by
      by_cases used : kind.usedBy src (callers call) = true
      · exact flightPc_used used
      · exact flightPc_other key used rfl
    rw [if_pos ⟨rfl, free⟩]
    exact flight_moves .check (.acquired before free) (by simp) (entry_congr kind src rfl rfl) (setLock_self ..) stands
  · have different : (callers call).lockKey ≠ some src := by
      rw [key]
      exact fun same => here (Option.some.inj same)
    rw [if_neg fun both => here (Option.some.inj both.1)]
    refine flight_same call .check (by simp) (entry_congr kind src rfl rfl) ?_ ?_
    · exact setLock_elsewhere _ fun same => here (Option.some.inj same)
    · rw [flightPc_elsewhere different, flightPc_elsewhere different]

theorem flight_refused {other : RepoSource} (at_pc : state.calls call = .lock) (key : (callers call).lockKey = some other)
    (stuck : state.locks other = .stuck) :
    Traces kind src callers state (state.goto call (.returned (.error (callers call).poisonedError)))
      (flightTrace kind src callers state (.advance call answer)) := by
  simp only [flightTrace, flightMove, at_pc, key]
  rw [if_neg (by
    intro both
    obtain ⟨same, free⟩ := both
    cases same
    cases stuck.symm.trans free)]
  refine flight_same call (.returned (.error (callers call).poisonedError)) rfl rfl rfl ?_
  rw [at_pc, flightPc_outside rfl, flightPc_outside rfl]

theorem flight_found {handle : Nat} (at_pc : state.calls call = .check) (cached : state.cached (callers call) = some handle) :
    Traces kind src callers state (state.goto call ((callers call).exit (.ok handle)))
      (flightTrace kind src callers state (.advance call answer)) := by
  simp only [flightTrace, flightMove, at_pc]
  rw [if_neg (by
    intro both
    obtain ⟨used, empty⟩ := both
    rw [used_cached used, empty] at cached
    cases cached)]
  refine flight_same call ((callers call).exit (.ok handle)) rfl rfl rfl ?_
  rw [at_pc]
  apply flightPc_congr
  · intro key
    rw [exit_inside key]
    rfl
  · intro used
    rw [phase_exit (used_key used)]
    rfl

theorem flight_missed (at_pc : state.calls call = .check) (cached : state.cached (callers call) = none) :
    Traces kind src callers state (state.goto call .probe) (flightTrace kind src callers state (.advance call answer)) := by
  simp only [flightTrace, flightMove, at_pc]
  by_cases used : kind.usedBy src (callers call) = true
  · have empty : kind.entry src state = none := (used_cached used state).symm.trans cached
    rw [if_pos ⟨used, empty⟩]
    exact flight_moves .probe (.missed (flight_at at_pc (flightPc_used used)) empty) rfl (entry_congr kind src rfl rfl) rfl
      (flightPc_used used)
  · rw [if_neg fun both => used both.1]
    refine flight_same call .probe rfl rfl rfl ?_
    rw [at_pc]
    exact flightPc_congr (fun _ => rfl) fun found => absurd found used

theorem flight_opened (at_pc : state.calls call = .opening) (alive : answer.panics = false) (works : answer.error = none) :
    Traces kind src callers state ({ state with opened := state.opened + 1 }.goto call ((callers call).keep state.opened))
      (flightTrace kind src callers state (.advance call answer)) := by
  simp only [flightTrace, flightMove, at_pc, alive, works, reduceCtorEq, and_false, and_self, and_true, if_false]
  by_cases used : kind.usedBy src (callers call) = true
  · have stands : flightPc kind src (callers call) ((callers call).keep state.opened) = .computed state.opened := by
      rw [flightPc_used used, phase_keep (used_key used)]
      rfl
    rw [if_pos used]
    exact flight_moves ((callers call).keep state.opened) (.computed state.opened (flight_at at_pc (flightPc_used used))) rfl
      (entry_congr kind src rfl rfl) rfl stands
  · rw [if_neg used]
    refine flight_same call ((callers call).keep state.opened) rfl rfl rfl ?_
    rw [at_pc]
    apply flightPc_congr
    · intro key
      rw [keep_inside key]
      rfl
    · exact fun found => absurd found used

theorem flight_inserted {handle : Nat} (at_pc : state.calls call = .insert handle) :
    Traces kind src callers state ((state.store handle (callers call)).goto call (.unlock (.ok handle)))
      (flightTrace kind src callers state (.advance call answer)) := by
  simp only [flightTrace, flightMove, at_pc]
  by_cases used : kind.usedBy src (callers call) = true
  · have cell : kind.entry src (state.store handle (callers call)) = some handle := by rw [entry_store, if_pos used]
    rw [if_pos used]
    exact flight_moves (.unlock (.ok handle)) (.inserted (flight_at at_pc (flightPc_used used))) (by simp) cell
      (congrFun (store_locks ..) src)
      (flightPc_used used)
  · have cell : kind.entry src (state.store handle (callers call)) = kind.entry src state := by rw [entry_store, if_neg used]
    rw [if_neg used]
    refine flight_same call (.unlock (.ok handle)) (by simp) cell (by simp) ?_
    rw [at_pc]
    exact flightPc_congr (fun _ => rfl) fun found => absurd found used

theorem flight_unlocked {result : Except VfsError Nat} (at_pc : state.calls call = .unlock result) :
    Traces kind src callers state ((state.setLock .free (callers call).lockKey).goto call (.returned result))
      (flightTrace kind src callers state (.advance call answer)) := by
  simp only [flightTrace, flightMove, at_pc]
  by_cases key : (callers call).lockKey = some src
  · have lock : ((state.setLock .free (callers call).lockKey).goto call (.returned result)).locks src = .free := by
      rw [goto_locks, key, setLock_self]
    rw [if_pos key]
    exact flight_moves (.returned result) (.released (flight_inside key at_pc rfl (by simp))) (by simp)
      (entry_congr kind src (setLock_repos ..) (setLock_repoVfsOps ..)) lock (flightPc_outside rfl)
  · rw [if_neg key]
    refine flight_same call (.returned result) (by simp) (entry_congr kind src (setLock_repos ..) (setLock_repoVfsOps ..))
      (setLock_elsewhere _ key) ?_
    rw [flightPc_elsewhere key, flightPc_elsewhere key]

theorem flight_removedRepo (other : RepoSource) :
    Traces kind src callers state { state with repos := Function.update state.repos other none }
      (flightTrace kind src callers state (.removeRepo other)) := by
  simp only [flightTrace]
  split
  next here =>
    obtain ⟨rfl, rfl⟩ := here
    have emptied : flight .repos other callers { state with repos := Function.update state.repos other none } =
        { flight .repos other callers state with cell := none } := by simp [flight, CacheKind.entry]
    rw [Traces, emptied]
    exact .removed
  next elsewhere =>
    have kept : kind.entry src { state with repos := Function.update state.repos other none } = kind.entry src state := by
      cases kind with
      | repos => exact Function.update_of_ne (fun same => elsewhere ⟨rfl, same.symm⟩) ..
      | repoVfsOps => rfl
    rw [Traces, flight, kept]
    rfl

theorem flight_removedVfsOp (other : RepoSource) :
    Traces kind src callers state { state with repoVfsOps := Function.update state.repoVfsOps other none }
      (flightTrace kind src callers state (.removeVfsOp other)) := by
  simp only [flightTrace]
  split
  next here =>
    obtain ⟨rfl, rfl⟩ := here
    have emptied : flight .repoVfsOps other callers { state with repoVfsOps := Function.update state.repoVfsOps other none } =
        { flight .repoVfsOps other callers state with cell := none } := by simp [flight, CacheKind.entry]
    rw [Traces, emptied]
    exact .removed
  next elsewhere =>
    have kept : kind.entry src { state with repoVfsOps := Function.update state.repoVfsOps other none } = kind.entry src state := by
      cases kind with
      | repos => rfl
      | repoVfsOps => exact Function.update_of_ne (fun same => elsewhere ⟨rfl, same.symm⟩) ..
    rw [Traces, flight, kept]
    rfl

end Seen

theorem flight_failed {error : VfsError} (left : Bool) (working : Working (state.calls call)) (alive : answer.panics = false)
    (opening : state.calls call = .opening → answer.error ≠ none) :
    Traces kind src callers state
      ((state.afterInit (locate (callers call).src) left).goto call ((callers call).exit (.error error)))
      (flightTrace kind src callers state (.advance call answer)) := by
  have silent : flightTrace kind src callers state (.advance call answer) = none := by
    rcases working with at_pc | at_pc | at_pc
    · simp [flightTrace, flightMove, at_pc, alive]
    · simp [flightTrace, flightMove, at_pc, alive]
    · simp [flightTrace, flightMove, at_pc, alive, opening at_pc]
  rw [silent]
  refine flight_same call ((callers call).exit (.error error)) (by simp) (entry_congr kind src (by simp) (by simp)) (by simp) ?_
  apply flightPc_congr
  · intro key
    rw [exit_inside key, working.inside]
  · intro used
    rw [phase_exit (used_key used)]
    rcases working with at_pc | at_pc | at_pc <;> rw [at_pc] <;> rfl

theorem flight_panicked (left : Bool) (working : Working (state.calls call)) (dies : answer.panics = true) :
    Traces kind src callers state ((state.afterInit (locate (callers call).src) left).panic call (callers call))
      (flightTrace kind src callers state (.advance call answer)) := by
  by_cases key : (callers call).lockKey = some src
  · have trace : flightTrace kind src callers state (.advance call answer) = some (.abandon call) := by
      rcases working with at_pc | at_pc | at_pc <;> simp [flightTrace, flightMove, at_pc, dies, key]
    have lock : (((state.afterInit (locate (callers call).src) left).panic call (callers call)).locks src) = .stuck := by
      rw [RepoState.panic, goto_locks, key, setLock_self]
    have nothing : ∀ handle, state.calls call ≠ .insert handle := by
      intro handle at_pc
      rw [at_pc] at working
      rcases working with equal | equal | equal <;> cases equal
    rw [trace]
    exact flight_moves (.returned (.error (callers call).panicError)) (.abandoned (flight_inside key rfl working.inside nothing)) (by simp)
      (entry_congr kind src (by simp) (by simp)) lock (flightPc_outside rfl)
  · have unused : ¬kind.usedBy src (callers call) = true := fun used => key (used_key used)
    have silent : flightTrace kind src callers state (.advance call answer) = none := by
      rcases working with at_pc | at_pc | at_pc <;> simp [flightTrace, flightMove, at_pc, key, unused]
    rw [silent]
    refine flight_same call (.returned (.error (callers call).panicError)) (by simp)
      (entry_congr kind src (by simp) (by simp)) ?_ ?_
    · rw [RepoState.panic, goto_locks, setLock_elsewhere _ key]
      simp
    · rw [flightPc_elsewhere key, flightPc_elsewhere key]

theorem flight_step (kind : CacheKind) (src : RepoSource) (move : Move locate callers state event next) :
    Traces kind src callers state next (flightTrace kind src callers state event) := by
  cases move with
  | @called call at_pc =>
    have outside : flightPc kind src (callers call) .absent = .outside := flightPc_outside rfl
    refine flight_same call (entry (callers call)) rfl rfl rfl ?_
    rw [at_pc, outside]
    cases caller : callers call <;> simp [flightPc, CacheKind.usedBy, entry, inside, Caller.lockKey, phase]
  | @hit call answer handle at_pc cached =>
    simp only [flightTrace, flightMove, at_pc]
    refine flight_same call (.returned (.ok handle)) rfl rfl rfl ?_
    rw [at_pc, flightPc_outside rfl, flightPc_outside rfl]
  | @unknown call answer at_pc =>
    simp only [flightTrace, flightMove, at_pc]
    refine flight_same call .lock rfl rfl rfl ?_
    rw [at_pc, flightPc_outside rfl, flightPc_outside rfl]
  | @acquired call answer other at_pc key free => exact flight_acquired at_pc key free
  | @refused call answer other at_pc key stuck => exact flight_refused at_pc key stuck
  | @found call answer handle at_pc cached => exact flight_found at_pc cached
  | @missed call answer at_pc cached => exact flight_missed at_pc cached
  | @existing call answer at_pc alive =>
    simp only [flightTrace, flightMove, at_pc, alive, reduceCtorEq, and_false, if_false]
    refine flight_same call .opening rfl rfl rfl ?_
    rw [at_pc]
    exact flightPc_congr (fun _ => rfl) fun _ => rfl
  | @missing call answer at_pc alive absent allowed =>
    simp only [flightTrace, flightMove, at_pc, alive, reduceCtorEq, and_false, if_false]
    refine flight_same call .init rfl rfl rfl ?_
    rw [at_pc]
    exact flightPc_congr (fun _ => rfl) fun _ => rfl
  | @created call answer at_pc alive =>
    simp only [flightTrace, flightMove, at_pc, alive, reduceCtorEq, and_false, if_false]
    refine flight_same call .opening rfl rfl rfl ?_
    rw [at_pc]
    exact flightPc_congr (fun _ => rfl) fun _ => rfl
  | @opened call answer at_pc alive works => exact flight_opened at_pc alive works
  | @failed call answer error left working alive opening initialized => exact flight_failed left working alive opening
  | @panicked call answer left working dies initialized => exact flight_panicked left working dies
  | @inserted call answer handle at_pc => exact flight_inserted at_pc
  | @unlocked call answer result at_pc => exact flight_unlocked at_pc
  | removedRepo other => exact flight_removedRepo other
  | removedVfsOp other => exact flight_removedVfsOp other

end Entry

def entryProjection (locate : RepoSource → Λ) (callers : ι → Caller) (kind : CacheKind) (src : RepoSource) :
    Projection (repoStep locate callers) (flightStep (ι := ι) (ν := Nat)) where
  project := flight kind src callers
  trace := flightTrace kind src callers
  silent := by
    intro state event next taken silent
    have traced := flight_step kind src (repoStep_move taken)
    rw [silent] at traced
    exact traced
  moves := by
    intro state event next move taken moved
    have traced := flight_step kind src (repoStep_move taken)
    rw [moved] at traced
    exact traced.taken

/-- The handle that a caller of the entry opens. -/
def openedFor (kind : CacheKind) (src : RepoSource) (callers : ι → Caller) (state : RepoState Λ ι) : RepoEvent ι → Option Nat
  | .advance call answer =>
    if state.calls call = .opening ∧ kind.usedBy src (callers call) = true ∧ answer.panics = false ∧ answer.error = none
    then some state.opened else none
  | _ => none

/-- The handle that leaves the cache. -/
def evicted (kind : CacheKind) (src : RepoSource) (state : RepoState Λ ι) : RepoEvent ι → Option Nat
  | .removeRepo other => if kind = .repos ∧ other = src then kind.entry src state else none
  | .removeVfsOp other => if kind = .repoVfsOps ∧ other = src then kind.entry src state else none
  | _ => none

omit [DecidableEq Λ] in
theorem computed_opened (kind : CacheKind) (src : RepoSource) (state : RepoState Λ ι) (event : RepoEvent ι) :
    (flightTrace kind src callers state event).bind (computedBy (flight kind src callers state)) =
      openedFor kind src callers state event := by
  cases event with
  | call call => rfl
  | advance call answer =>
    cases at_pc : state.calls call with
    | opening =>
      by_cases used : kind.usedBy src (callers call) = true
      · have missed : (flight kind src callers state).pcs call = .missed := flight_at at_pc (flightPc_used used)
        have key := used_key used
        cases dies : answer.panics <;> cases fails : answer.error <;>
          simp [flightTrace, flightMove, openedFor, at_pc, used, key, dies, fails, computedBy, missed]
      · simp only [flightTrace, flightMove, openedFor, at_pc, used]
        split <;> simp [computedBy]
    | absent | lookup | returned result => simp [flightTrace, flightMove, openedFor, at_pc]
    | lock | check | probe | init | insert handle | unlock result =>
      simp only [flightTrace, flightMove, openedFor, at_pc, reduceCtorEq, false_and, if_false]
      split <;> rfl
  | removeRepo other | removeVfsOp other =>
    simp only [flightTrace, openedFor]
    split <;> rfl

omit [DecidableEq Λ] in
theorem removed_evicted (kind : CacheKind) (src : RepoSource) (state : RepoState Λ ι) (event : RepoEvent ι) :
    (flightTrace kind src callers state event).bind (removedBy (flight kind src callers state)) = evicted kind src state event := by
  cases event with
  | call call => rfl
  | advance call answer =>
    cases at_pc : state.calls call <;> simp only [flightTrace, flightMove, evicted, at_pc]
    all_goals
      repeat' split
      all_goals rfl
  | removeRepo other | removeVfsOp other =>
    simp only [flightTrace, evicted]
    split <;> rfl

/-- The handles that were opened for the entry so far. -/
def opens (locate : RepoSource → Λ) (callers : ι → Caller) (stored : Λ → Bool) (kind : CacheKind) (src : RepoSource)
    (events : List (RepoEvent ι)) : List Nat :=
  collect (repoStep locate callers) (openedFor kind src callers) (repoStart stored) events

def evictions (locate : RepoSource → Λ) (callers : ι → Caller) (stored : Λ → Bool) (kind : CacheKind) (src : RepoSource)
    (events : List (RepoEvent ι)) : List Nat :=
  collect (repoStep locate callers) (evicted kind src) (repoStart stored) events

theorem entry_flown (kind : CacheKind) (src : RepoSource)
    (executed : run (repoStep locate callers) (repoStart stored) events = some state) :
    Flown (opens locate callers stored kind src events) (evictions locate callers stored kind src events)
      (flight kind src callers state) := by
  have start : flight kind src callers (repoStart stored : RepoState Λ ι) = flightStart := by
    have outside (call : ι) : flightPc kind src (callers call) .absent = .outside := flightPc_outside rfl
    cases kind <;> simp [flight, flightStart, repoStart, CacheKind.entry, outside]
  have inside := (entryProjection locate callers kind src).run_inner executed
  have opened := (entryProjection locate callers kind src).collect_inner computedBy executed
  have removed := (entryProjection locate callers kind src).collect_inner removedBy executed
  simp only [entryProjection, start, computed_opened, removed_evicted] at inside opened removed
  have flown := flown_of_run inside
  rw [computes, opened, removals, removed] at flown
  exact flown

/-! #### What callers get -/

/-- The handle a call brings along or has returned. -/
def carried : RepoPc → Option Nat
  | .insert handle | .unlock (.ok handle) | .returned (.ok handle) => some handle
  | _ => none

theorem carried_exit (caller : Caller) (result : Except VfsError Nat) :
    carried (caller.exit result) = carried (.returned result) := by
  unfold Caller.exit
  split
  · cases result <;> rfl
  · rfl

theorem carried_keep (caller : Caller) (handle : Nat) : carried (caller.keep handle) = some handle := by
  unfold Caller.keep
  split <;> rfl

/-- What a call carries after an event it carried before, it found in its cache, or it has
just opened. -/
inductive Sourced (callers : ι → Caller) (state : RepoState Λ ι) (event : RepoEvent ι) (call : ι) (handle : Nat) : Prop where
  | kept (earlier : carried (state.calls call) = some handle)
  | found (cached : state.cached (callers call) = some handle)
  | opened (answer : Answer) (advances : event = .advance call answer) (at_pc : state.calls call = .opening)
      (alive : answer.panics = false) (works : answer.error = none) (number : handle = state.opened)

theorem carried_cases {call : ι} {handle : Nat} (move : Move locate callers state event next)
    (carries : carried (next.calls call) = some handle) : Sourced callers state event call handle := by
  have moved (other : ι) (pc : RepoPc) (calls : next.calls = Function.update state.calls other pc)
      (here : carried pc = some handle → Sourced callers state event other handle) : Sourced callers state event call handle := by
    rw [calls] at carries
    rcases of_update (fun pc : RepoPc => carried pc = some handle) carries with ⟨rfl, now⟩ | ⟨-, earlier⟩
    · exact here now
    · exact .kept earlier
  cases move with
  | @called other at_pc =>
    refine moved other _ rfl ?_
    intro now
    cases caller : callers other <;> rw [caller] at now <;> cases now
  | @hit other answer found at_pc cached =>
    refine moved other _ rfl ?_
    intro now
    cases now
    exact .found cached
  | @found other answer found at_pc cached =>
    refine moved other _ rfl ?_
    intro now
    rw [carried_exit] at now
    cases now
    exact .found cached
  | @opened other answer at_pc alive works =>
    refine moved other _ rfl ?_
    intro now
    rw [carried_keep] at now
    cases now
    exact .opened answer rfl at_pc alive works rfl
  | @failed other answer error left =>
    refine moved other ((callers other).exit (.error error)) (by simp) ?_
    intro now
    rw [carried_exit] at now
    cases now
  | @inserted other answer found at_pc =>
    refine moved other (.unlock (.ok found)) (by simp) ?_
    intro now
    exact .kept (by rw [at_pc]; exact now)
  | @unlocked other answer result at_pc =>
    refine moved other (.returned result) (by simp) ?_
    intro now
    apply Sourced.kept
    rw [at_pc]
    cases result <;> exact now
  | @panicked other => exact moved other (.returned (.error (callers other).panicError)) (by simp) nofun
  | @acquired other => exact moved other .check (by simp) nofun
  | @unknown other | @refused other | @missed other | @existing other | @missing other | @created other =>
    exact moved other _ rfl nofun
  | removedRepo src | removedVfsOp src => exact .kept carries

theorem carried_of_run (kind : CacheKind) (src : RepoSource)
    (executed : run (repoStep locate callers) (repoStart stored) events = some state) :
    ∀ call handle, kind.usedBy src (callers call) = true → carried (state.calls call) = some handle →
      handle ∈ opens locate callers stored kind src events := by
  apply run_history (fun events (state : RepoState Λ ι) => ∀ call handle, kind.usedBy src (callers call) = true →
    carried (state.calls call) = some handle → handle ∈ opens locate callers stored kind src events) _ _ executed
  · intro call handle _ carries
    cases carries
  · intro before state event next reached known taken call handle used carries
    unfold opens at known ⊢
    rw [collect_concat reached taken]
    apply List.mem_append.mpr
    cases carried_cases (repoStep_move taken) carries with
    | kept earlier => exact .inl (known call handle used earlier)
    | found cached =>
      rw [used_cached used] at cached
      exact .inl ((entry_flown kind src reached).known handle cached)
    | opened answer advances at_pc alive works number =>
      right
      simp [advances, number, openedFor, at_pc, used, alive, works]

/-- However the calls interleave and whatever the storage answers, one handle more is opened
for an entry of a cache than has left it, and every caller of the entry gets one of these.
So while nothing leaves the entry all of them share one handle. -/
theorem opened_once_per_eviction (locate : RepoSource → Λ) (callers : ι → Caller) (stored : Λ → Bool)
    (events : List (RepoEvent ι)) (final : RepoState Λ ι)
    (executed : run (repoStep locate callers) (repoStart stored) events = some final) (kind : CacheKind) (src : RepoSource) :
    (opens locate callers stored kind src events).length ≤ (evictions locate callers stored kind src events).length + 1 ∧
    (∀ call handle, kind.usedBy src (callers call) = true → final.calls call = .returned (.ok handle) →
      handle ∈ opens locate callers stored kind src events) ∧
    (evictions locate callers stored kind src events = [] → ∀ first second one two,
      kind.usedBy src (callers first) = true → kind.usedBy src (callers second) = true →
      final.calls first = .returned (.ok one) → final.calls second = .returned (.ok two) → one = two) := by
  have count := (entry_flown kind src executed).count
  have given (call : ι) (handle : Nat) (used : kind.usedBy src (callers call) = true)
      (returned : final.calls call = .returned (.ok handle)) : handle ∈ opens locate callers stored kind src events :=
    carried_of_run kind src executed call handle used (by rw [returned]; rfl)
  refine ⟨count, given, ?_⟩
  intro kept first second one two usedFirst usedSecond returnedFirst returnedSecond
  have memberOne := given first one usedFirst returnedFirst
  have memberTwo := given second two usedSecond returnedSecond
  rw [kept] at count
  match found : opens locate callers stored kind src events with
  | [] =>
    rw [found] at memberOne
    cases memberOne
  | [only] =>
    rw [found] at memberOne memberTwo
    exact (List.mem_singleton.mp memberOne).trans (List.mem_singleton.mp memberTwo).symm
  | _ :: _ :: _ =>
    rw [found] at count
    simp at count

/-- Two clients of an existing repository; the second waits and finds the handle. -/
def twoClients : List (RepoEvent Bool) :=
  [.call false, .call true] ++
    [false, true, false, false, false, false, false, false, true, true, true].map fun call => .advance call works

theorem two_clients_share : ∃ final,
    run (repoStep (fun _ => ()) fun _ => .getRepo disk) (repoStart fun _ => true) twoClients = some final ∧
    final.calls false = .returned (.ok 0) ∧ final.calls true = .returned (.ok 0) ∧
    (opens (fun _ => ()) (fun _ => .getRepo disk) (fun _ => true) .repos disk twoClients).length ≤
      (evictions (fun _ => ()) (fun _ => .getRepo disk) (fun _ => true) .repos disk twoClients).length + 1 :=
  ⟨_, rfl, rfl, rfl, (opened_once_per_eviction (fun _ => ()) (fun _ => .getRepo disk) (fun _ => true) twoClients _ rfl .repos disk).1⟩

end Vaulton.Proofs.RepoStore
