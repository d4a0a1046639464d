import Vaulton.Lib.Machine
import Vaulton.VfsCache

/-! When a cached operator is built from the stored user record. The generation only
protects the span between its two reads; a record read earlier and an insert made
later are covered as long as no invalidation falls beside that span. -/

namespace Vaulton.Proofs.VfsCache
open Vaulton.Lib Vaulton.Quota Vaulton.VfsCache

variable {ρ ι κ : Type}

/-- The record a task holds outside the span the generation protects: from reading the
record to reading the generation, and from re-reading it to the insert. -/
def exposed : TaskPc ρ → Option ρ
  | .lookup user | .lookupDegraded user | .refreshDegraded user => some user
  | .build user .lock _ | .build user .check _ | .build user .readGeneration _ => some user
  | .build user (.invalidateOther _) _ | .build user (.insert _) _ => some user
  | _ => none

/-- The record a task probes with and the generation it read. -/
def probing : TaskPc ρ → Option (ρ × Nat)
  | .build user (.create generation) _ | .build user (.recheck generation _) _ => some (user, generation)
  | _ => none

/-- The step of a SetVfs call falls beside no request: a call that skips the
invalidation replaces the record it compared with, and the generation moves only while
every exposed record is the stored one. -/
def Apart [DecidableEq ρ] (state : CacheState ρ ι κ) (new : Option ρ) (fails : Bool) : SetVfsPc ρ → Prop
  | .setUsers old => fails = true ∨ userChanged old new = true ∨ state.stored = old
  | .bump => state.generation < u64Max ∧ ∀ task, ∀ user ∈ exposed (state.tasks task), state.stored = some user
  | _ => True

instance [DecidableEq ρ] [Fintype ι] (state : CacheState ρ ι κ) (new : Option ρ) (fails : Bool) :
    (pc : SetVfsPc ρ) → Decidable (Apart state new fails pc)
  | .setUsers _ => inferInstanceAs (Decidable (_ ∨ _))
  | .bump => inferInstanceAs (Decidable (_ ∧ _))
  | .readUsers | .clearVfsOps | .clearDegradedOps | .done => .isTrue trivial

def Undisturbed [DecidableEq ρ] (records : κ → Option ρ) (state : CacheState ρ ι κ) : CacheEvent ι κ → Prop
  | .setVfs call fails => Apart state (records call) fails (state.setVfs call)
  | _ => True

instance [DecidableEq ρ] [Fintype ι] (records : κ → Option ρ) (state : CacheState ρ ι κ) :
    (event : CacheEvent ι κ) → Decidable (Undisturbed records state event)
  | .setVfs _ _ => inferInstanceAs (Decidable (Apart ..))
  | .arrive _ | .advance _ _ => .isTrue trivial

def Invalidating : SetVfsPc ρ → Prop
  | .bump | .clearVfsOps | .clearDegradedOps => True
  | _ => False

/-- Some SetVfs call has written its record and not yet moved the generation. -/
def BumpPending (state : CacheState ρ ι κ) : Prop := ∃ call, state.setVfs call = .bump

def ClearsVfsOps (state : CacheState ρ ι κ) : Prop := ∃ call, state.setVfs call = .bump ∨ state.setVfs call = .clearVfsOps

def ClearsDegradedOps (state : CacheState ρ ι κ) : Prop := ∃ call, Invalidating (state.setVfs call)

/-- Whatever was read from an older record is still going to be invalidated. -/
structure Covered (state : CacheState ρ ι κ) : Prop where
  held : ∀ task user, exposed (state.tasks task) = some user → state.stored = some user ∨ BumpPending state
  probed : ∀ task user generation, probing (state.tasks task) = some (user, generation) →
    generation ≤ state.generation ∧
      (generation = state.generation → state.stored = some user ∨ BumpPending state)
  vfsOps : ∀ user, state.vfsOps = some user → state.stored = some user ∨ ClearsVfsOps state
  degradedOps : ∀ user, state.degradedOps = some user → state.stored = some user ∨ ClearsDegradedOps state

theorem BumpPending.clearsVfsOps {state : CacheState ρ ι κ} (pending : BumpPending state) : ClearsVfsOps state := by
  obtain ⟨call, at_bump⟩ := pending
  exact ⟨call, .inl at_bump⟩

theorem ClearsVfsOps.clearsDegradedOps {state : CacheState ρ ι κ} (pending : ClearsVfsOps state) :
    ClearsDegradedOps state := by
  obtain ⟨call, at_bump | at_clear⟩ := pending
  · exact ⟨call, by simp [Invalidating, at_bump]⟩
  · exact ⟨call, by simp [Invalidating, at_clear]⟩

theorem Covered.initial (stored : Option ρ) : Covered (cacheStart stored : CacheState ρ ι κ) where
  held := by simp [cacheStart, exposed]
  probed := by simp [cacheStart, probing]
  vfsOps := by simp [cacheStart]
  degradedOps := by simp [cacheStart]

/-! ### Steps of requests -/

section Requests

variable [DecidableEq ι]

/-- A task moves: the record it goes on with and the caches it leaves are covered. -/
private theorem Covered.move {state next : CacheState ρ ι κ} {task : ι} {pc : TaskPc ρ} (covered : Covered state)
    (moved : next.tasks = Function.update state.tasks task pc) (stored : next.stored = state.stored)
    (generation : next.generation = state.generation) (setVfs : next.setVfs = state.setVfs)
    (held : ∀ user, exposed pc = some user → state.stored = some user ∨ BumpPending state)
    (probed : ∀ user generation, probing pc = some (user, generation) → generation ≤ state.generation ∧
      (generation = state.generation → state.stored = some user ∨ BumpPending state))
    (vfsOps : ∀ user, next.vfsOps = some user → state.stored = some user ∨ ClearsVfsOps state)
    (degradedOps : ∀ user, next.degradedOps = some user → state.stored = some user ∨ ClearsDegradedOps state) :
    Covered next := by
  have pending : BumpPending next ↔ BumpPending state := by simp [BumpPending, setVfs]
  refine ⟨?_, ?_, ?_, ?_⟩
  · rw [moved, stored, pending]
    exact forall_update (fun _ pc => ∀ user, exposed pc = some user → state.stored = some user ∨ BumpPending state)
      covered.held held
  · rw [moved, stored, pending, generation]
    exact forall_update (fun _ pc => ∀ user read, probing pc = some (user, read) → read ≤ state.generation ∧
      (read = state.generation → state.stored = some user ∨ BumpPending state)) covered.probed probed
  · intro user cached
    rw [stored]
    simpa [ClearsVfsOps, setVfs] using vfsOps user cached
  · intro user cached
    rw [stored]
    simpa [ClearsDegradedOps, setVfs] using degradedOps user cached

private theorem Covered.goto {state next : CacheState ρ ι κ} {task : ι} {pc : TaskPc ρ} (covered : Covered state)
    (moved : next.tasks = Function.update state.tasks task pc) (stored : next.stored = state.stored)
    (generation : next.generation = state.generation) (setVfs : next.setVfs = state.setVfs)
    (vfsOps : next.vfsOps = state.vfsOps) (degradedOps : next.degradedOps = state.degradedOps)
    (held : ∀ user, exposed pc = some user → state.stored = some user ∨ BumpPending state)
    (probed : ∀ user generation, probing pc = some (user, generation) → generation ≤ state.generation ∧
      (generation = state.generation → state.stored = some user ∨ BumpPending state)) : Covered next :=
  covered.move moved stored generation setVfs held probed (fun user cached => covered.vfsOps user (vfsOps ▸ cached))
    (fun user cached => covered.degradedOps user (degradedOps ▸ cached))

private theorem Covered.build_step {state next : CacheState ρ ι κ} {task : ι} {user : ρ} {background : Bool}
    {created : Created} {pc : BuildPc} (covered : Covered state) (at_pc : state.tasks task = .build user pc background)
    (taken : buildStep state task user background created pc = some next) : Covered next := by
  have held (here : exposed (.build user pc background) = some user) : state.stored = some user ∨ BumpPending state :=
    covered.held task user (at_pc ▸ here)
  cases pc with
  | lock =>
    simp only [buildStep] at taken
    split at taken <;> cases taken
    exact covered.goto rfl rfl rfl rfl rfl rfl (by simpa [exposed] using held rfl) (by simp [probing])
  | check =>
    simp only [buildStep] at taken
    split at taken <;> cases taken
    · exact covered.goto rfl rfl rfl rfl rfl rfl (by simp [exposed]) (by simp [probing])
    · exact covered.goto rfl rfl rfl rfl rfl rfl (by simpa [exposed] using held rfl) (by simp [probing])
  | readGeneration =>
    cases taken
    refine covered.goto rfl rfl rfl rfl rfl rfl (by simp [exposed]) ?_
    intro other generation member
    cases member
    exact ⟨Nat.le_refl _, fun _ => held rfl⟩
  | create generation =>
    have probed := covered.probed task user generation (by simp [at_pc, probing])
    simp only [buildStep] at taken
    split at taken <;> cases taken
    · exact covered.goto rfl rfl rfl rfl rfl rfl (by simp [exposed]) (by simp [probing])
    all_goals
      refine covered.goto rfl rfl rfl rfl rfl rfl (by simp [exposed]) ?_
      intro other read member
      cases member
      exact probed
  | recheck generation degraded =>
    have probed := covered.probed task user generation (by simp [at_pc, probing])
    simp only [buildStep] at taken
    split at taken <;> cases taken
    · exact covered.goto rfl rfl rfl rfl rfl rfl (by simp [exposed]) (by simp [probing])
    next same =>
      refine covered.goto rfl rfl rfl rfl rfl rfl ?_ (by simp [probing])
      intro other member
      cases member
      exact probed.2 (not_not.mp same)
  | invalidateOther degraded =>
    simp only [buildStep] at taken
    split at taken <;> cases taken
    · exact covered.move rfl rfl rfl rfl (by simpa [exposed] using held rfl) (by simp [probing])
        (by simp [CacheState.goto]) covered.degradedOps
    · exact covered.move rfl rfl rfl rfl (by simpa [exposed] using held rfl) (by simp [probing])
        covered.vfsOps (by simp [CacheState.goto])
  | insert degraded =>
    simp only [buildStep] at taken
    split at taken <;> cases taken
    · refine covered.move rfl rfl rfl rfl (by simp [exposed]) (by simp [probing]) covered.vfsOps ?_
      intro other cached
      cases cached
      exact (held rfl).imp_right fun pending => pending.clearsVfsOps.clearsDegradedOps
    · refine covered.move rfl rfl rfl rfl (by simp [exposed]) (by simp [probing]) ?_ covered.degradedOps
      intro other cached
      cases cached
      exact (held rfl).imp_right BumpPending.clearsVfsOps
  | unlock =>
    cases taken
    cases background <;>
      exact covered.goto rfl rfl rfl rfl rfl rfl (by simp [exposed, afterBuild]) (by simp [probing, afterBuild])

private theorem Covered.task_step [DecidableEq ρ] {state next : CacheState ρ ι κ} {task : ι} {choice : TaskChoice ι}
    (covered : Covered state) (taken : taskStep state task choice (state.tasks task) = some next) : Covered next := by
  cases at_pc : state.tasks task with
  | unborn => simp [at_pc, taskStep] at taken
  | readUser =>
    simp only [at_pc, taskStep] at taken
    split at taken <;> cases taken
    · exact covered.goto rfl rfl rfl rfl rfl rfl (by simp [exposed]) (by simp [probing])
    next user found =>
      refine covered.goto rfl rfl rfl rfl rfl rfl ?_ (by simp [probing])
      intro other member
      cases member
      exact .inl found
  | lookup user =>
    have held := covered.held task user (by simp [at_pc, exposed])
    simp only [at_pc, taskStep] at taken
    split at taken <;> cases taken
    · exact covered.goto rfl rfl rfl rfl rfl rfl (by simp [exposed]) (by simp [probing])
    · exact covered.goto rfl rfl rfl rfl rfl rfl (by simpa [exposed] using held) (by simp [probing])
  | lookupDegraded user =>
    have held := covered.held task user (by simp [at_pc, exposed])
    simp only [at_pc, taskStep] at taken
    split at taken <;> cases taken <;>
      exact covered.goto rfl rfl rfl rfl rfl rfl (by simpa [exposed] using held) (by simp [probing])
  | refreshDegraded user =>
    have held := covered.held task user (by simp [at_pc, exposed])
    simp only [at_pc, taskStep] at taken
    split at taken
    · cases taken
      exact covered.goto rfl rfl rfl rfl rfl rfl (by simp [exposed]) (by simp [probing])
    · split at taken <;> cases taken
      -- The request ends and its refresh goes on with the same record.
      have ended : Covered (CacheState.goto { state with refreshing := true } task .done) :=
        covered.goto rfl rfl rfl rfl rfl rfl (by simp [exposed]) (by simp [probing])
      refine ended.goto rfl rfl rfl rfl rfl rfl ?_ (by simp [probing])
      intro other member
      cases member
      exact held
  | build user pc background =>
    simp only [at_pc, taskStep] at taken
    exact covered.build_step at_pc taken
  | refreshed =>
    simp only [at_pc, taskStep] at taken
    cases taken
    exact covered.goto rfl rfl rfl rfl rfl rfl (by simp [exposed]) (by simp [probing])
  | done => simp [at_pc, taskStep] at taken

end Requests

/-! ### Steps of SetVfs -/

variable [DecidableEq κ]

private theorem Covered.call_moves {state next : CacheState ρ ι κ} {call : κ} {pc : SetVfsPc ρ} (covered : Covered state)
    (moved : next.setVfs = Function.update state.setVfs call pc) (stored : next.stored = state.stored)
    (generation : next.generation = state.generation) (tasks : next.tasks = state.tasks)
    (not_bump : state.setVfs call ≠ .bump)
    (vfsOps : next.vfsOps = none ∨ next.vfsOps = state.vfsOps ∧ state.setVfs call ≠ .clearVfsOps)
    (degradedOps : next.degradedOps = none ∨
      next.degradedOps = state.degradedOps ∧ (Invalidating (state.setVfs call) → Invalidating pc)) : Covered next := by
  have bump : BumpPending state → BumpPending next := by
    intro pending
    unfold BumpPending
    rw [moved]
    exact exists_update (fun pc : SetVfsPc ρ => pc = .bump) pending fun at_bump => absurd at_bump not_bump
  refine ⟨?_, ?_, ?_, ?_⟩
  · intro task user member
    rw [tasks] at member
    rw [stored]
    exact (covered.held task user member).imp_right bump
  · intro task user read member
    rw [tasks] at member
    rw [stored, generation]
    obtain ⟨bound, protects⟩ := covered.probed task user read member
    exact ⟨bound, fun same => (protects same).imp_right bump⟩
  · intro user cached
    rcases vfsOps with empty | ⟨same, not_clear⟩
    · simp [empty] at cached
    · rw [same] at cached
      rw [stored]
      refine (covered.vfsOps user cached).imp_right fun pending => ?_
      unfold ClearsVfsOps
      rw [moved]
      refine exists_update (fun pc : SetVfsPc ρ => pc = .bump ∨ pc = .clearVfsOps) pending fun here => ?_
      rcases here with at_bump | at_clear
      · exact absurd at_bump not_bump
      · exact absurd at_clear not_clear
  · intro user cached
    rcases degradedOps with empty | ⟨same, stays⟩
    · simp [empty] at cached
    · rw [same] at cached
      rw [stored]
      refine (covered.degradedOps user cached).imp_right fun pending => ?_
      unfold ClearsDegradedOps
      rw [moved]
      exact exists_update _ pending stays

/-- Storing a record: either the call goes on to invalidate, or the record it replaces
is the one it compared with, so nothing built from a stored record goes stale. -/
private theorem Covered.store [DecidableEq ρ] {state : CacheState ρ ι κ} {call : κ} {old new : Option ρ} (covered : Covered state)
    (at_pc : state.setVfs call = .setUsers old) (apart : userChanged old new = true ∨ state.stored = old) :
    Covered { state with
      stored := new
      setVfs := Function.update state.setVfs call (if userChanged old new then .bump else .done) } := by
  by_cases changed : userChanged old new = true
  · rw [if_pos changed]
    have pending : BumpPending { state with stored := new, setVfs := Function.update state.setVfs call .bump } :=
      ⟨call, Function.update_self ..⟩
    refine ⟨fun _ _ _ => .inr pending, ?_, fun _ _ => .inr pending.clearsVfsOps,
      fun _ _ => .inr pending.clearsVfsOps.clearsDegradedOps⟩
    intro task user read member
    exact ⟨(covered.probed task user read member).1, fun _ => .inr pending⟩
  · rw [if_neg changed]
    obtain rfl := apart.resolve_left changed
    by_cases same : new = state.stored
    · subst new
      exact covered.call_moves rfl rfl rfl rfl (by simp [at_pc]) (.inr ⟨rfl, by simp [at_pc]⟩)
        (.inr ⟨rfl, by simp [at_pc, Invalidating]⟩)
    · -- The user was not stored, so whatever is held for it is already covered by another call.
      have absent : state.stored = none := by
        simpa [userChanged, same] using changed
      have other : Covered { state with setVfs := Function.update state.setVfs call .done } :=
        covered.call_moves rfl rfl rfl rfl (by simp [at_pc]) (.inr ⟨rfl, by simp [at_pc]⟩)
          (.inr ⟨rfl, by simp [at_pc, Invalidating]⟩)
      refine ⟨?_, ?_, ?_, ?_⟩
      · intro task user member
        exact .inr ((other.held task user member).resolve_left (by simp [absent]))
      · intro task user read member
        obtain ⟨bound, protects⟩ := other.probed task user read member
        exact ⟨bound, fun same => .inr ((protects same).resolve_left (by simp [absent]))⟩
      · intro user cached
        exact .inr ((other.vfsOps user cached).resolve_left (by simp [absent]))
      · intro user cached
        exact .inr ((other.degradedOps user cached).resolve_left (by simp [absent]))

private theorem Covered.bump {state : CacheState ρ ι κ} {call : κ} (covered : Covered state)
    (room : state.generation < u64Max)
    (apart : ∀ task user, exposed (state.tasks task) = some user → state.stored = some user) :
    Covered { state with
      generation := saturatingAdd state.generation 1
      setVfs := Function.update state.setVfs call .clearVfsOps } := by
  have advanced : saturatingAdd state.generation 1 = state.generation + 1 := by
    simp only [saturatingAdd]
    omega
  have clears : ClearsVfsOps { state with
      generation := saturatingAdd state.generation 1
      setVfs := Function.update state.setVfs call .clearVfsOps } := ⟨call, .inr (Function.update_self ..)⟩
  refine ⟨fun task user member => .inl (apart task user member), ?_, fun _ _ => .inr clears,
    fun _ _ => .inr clears.clearsDegradedOps⟩
  intro task user read member
  have bound := (covered.probed task user read member).1
  constructor <;> dsimp only <;> omega

variable [DecidableEq ρ]

private theorem Covered.setVfs_step {state next : CacheState ρ ι κ} {call : κ} {new : Option ρ} {fails : Bool}
    (covered : Covered state) (apart : Apart state new fails (state.setVfs call))
    (taken : setVfsStep state call new fails (state.setVfs call) = some next) : Covered next := by
  cases at_pc : state.setVfs call with
  | readUsers =>
    simp only [at_pc, setVfsStep] at taken
    cases taken
    exact covered.call_moves rfl rfl rfl rfl (by simp [at_pc]) (.inr ⟨rfl, by simp [at_pc]⟩)
      (.inr ⟨rfl, by simp [at_pc, Invalidating]⟩)
  | setUsers old =>
    simp only [at_pc, setVfsStep] at taken
    simp only [at_pc, Apart] at apart
    split at taken <;> cases taken
    · exact covered.call_moves rfl rfl rfl rfl (by simp [at_pc]) (.inr ⟨rfl, by simp [at_pc]⟩)
        (.inr ⟨rfl, by simp [at_pc, Invalidating]⟩)
    next succeeds => exact covered.store at_pc (apart.resolve_left succeeds)
  | bump =>
    simp only [at_pc, setVfsStep] at taken
    simp only [at_pc, Apart] at apart
    cases taken
    exact covered.bump apart.1 apart.2
  | clearVfsOps =>
    simp only [at_pc, setVfsStep] at taken
    cases taken
    exact covered.call_moves rfl rfl rfl rfl (by simp [at_pc]) (.inl rfl) (.inr ⟨rfl, fun _ => trivial⟩)
  | clearDegradedOps =>
    simp only [at_pc, setVfsStep] at taken
    cases taken
    exact covered.call_moves rfl rfl rfl rfl (by simp [at_pc]) (.inr ⟨rfl, by simp [at_pc]⟩) (.inl rfl)
  | done => simp [at_pc, setVfsStep] at taken

variable [DecidableEq ι]

theorem Covered.step {records : κ → Option ρ} {state next : CacheState ρ ι κ} {event : CacheEvent ι κ}
    (covered : Covered state) (undisturbed : Undisturbed records state event)
    (taken : cacheStep records state event = some next) : Covered next := by
  cases event with
  | arrive task =>
    simp only [cacheStep] at taken
    split at taken <;> cases taken
    exact covered.goto rfl rfl rfl rfl rfl rfl (by simp [exposed]) (by simp [probing])
  | advance task choice => exact covered.task_step taken
  | setVfs call fails => exact covered.setVfs_step undisturbed taken

/-- No SetVfs call stands between its database write and the end of its invalidation. -/
def Settled (state : CacheState ρ ι κ) : Prop := ∀ call, ¬Invalidating (state.setVfs call)

/-- Every cached operator was built from the stored user record. -/
def CachesCurrent (state : CacheState ρ ι κ) : Prop :=
  ∀ user, state.vfsOps = some user ∨ state.degradedOps = some user → state.stored = some user

/-- In a run without an invalidation beside a request's protected span, the caches only
hold operators of the stored record. -/
theorem undisturbed_caches_current (records : κ → Option ρ) (stored : Option ρ) (events : List (CacheEvent ι κ))
    (final : CacheState ρ ι κ) (undisturbed : Guarded (cacheStep records) (Undisturbed records) (cacheStart stored) events)
    (executed : run (cacheStep records) (cacheStart stored) events = some final) (settled : Settled final) :
    CachesCurrent final := by
  have covered := guarded_invariant (fun _ _ _ covered allowed taken => Covered.step covered allowed taken)
    (Covered.initial stored) undisturbed executed
  intro user cached
  have nothing : ¬ClearsDegradedOps final := fun ⟨call, pending⟩ => settled call pending
  rcases cached with cached | cached
  · exact (covered.vfsOps user cached).resolve_right fun pending => nothing pending.clearsDegradedOps
  · exact (covered.degradedOps user cached).resolve_right nothing

def quickBuild (task : Bool) : List (CacheEvent Bool Unit) :=
  List.replicate 11 (.advance task ⟨task, .healthy⟩)

def oneSetVfs : List (CacheEvent Bool Unit) := List.replicate 5 (.setVfs () false)

/-- A request caches the first record, SetVfs replaces it, a second request caches the
new one. -/
def orderlyRun : List (CacheEvent Bool Unit) :=
  .arrive false :: quickBuild false ++ oneSetVfs ++ .arrive true :: quickBuild true

theorem orderly_run_current : ∃ final : CacheState Nat Bool Unit,
    run (cacheStep fun _ => some 2) (cacheStart (some 1)) orderlyRun = some final ∧
    final.vfsOps = some 2 ∧ CachesCurrent final := by
  have current := undisturbed_caches_current (fun _ => some 2) (some 1) orderlyRun _ (by decide) rfl (by
    intro call
    exact id)
  exact ⟨_, rfl, rfl, current⟩

/-- The request has read the first record when SetVfs replaces it; it then finds the new
generation both times. -/
def overtakenRun : List (CacheEvent Bool Unit) :=
  [.arrive false, .advance false ⟨false, .healthy⟩] ++ oneSetVfs ++ List.replicate 10 (.advance false ⟨false, .healthy⟩)

theorem overtaken_request_caches_stale_record : ¬∀ (records : Unit → Option Nat) (stored : Option Nat)
    (events : List (CacheEvent Bool Unit)) (final : CacheState Nat Bool Unit),
    run (cacheStep records) (cacheStart stored) events = some final → Settled final → CachesCurrent final := by
  intro always
  have current := always (fun _ => some 2) (some 1) overtakenRun _ rfl (by
    intro call
    exact id)
  exact absurd (current 1 (.inl rfl)) (by decide)

end Vaulton.Proofs.VfsCache
