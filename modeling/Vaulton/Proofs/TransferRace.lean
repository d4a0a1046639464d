import Vaulton.Proofs.Transfer
import Vaulton.Proofs.TransferFrame
import Vaulton.TransferRace

/-! Transfers beside one another. A job owns its destination as long as no other job that
runs at the same time writes there; then everything below it is its own, and its stage can
be told from the storage it would have had alone. -/

namespace Vaulton.Proofs.TransferRace
open Vaulton.Lib Vaulton.Config Vaulton.Transfer Vaulton.TransferRace
open Vaulton.Proofs.Config Vaulton.Proofs.Paths Vaulton.Proofs.TransferJob Vaulton.Proofs.Transfer

/-! ### What plans have in common -/

def sourceOf (plan : TransferPlan) : Option Place := locate plan.srcOp plan.srcPath

def destinationOf (plan : TransferPlan) : Option Place := locate plan.dstOp plan.dstPath

def uses (plan : TransferPlan) : List Place := (destinationOf plan).toList ++ (sourceOf plan).toList

/-- A move changes its source too. -/
def changes (plan : TransferPlan) : List Place :=
  (destinationOf plan).toList ++ if plan.copy then [] else (sourceOf plan).toList

def Disturbs (first second : TransferPlan) : Prop := ∃ changed ∈ changes first, ∃ used ∈ uses second, Overlap changed used

instance (first second : TransferPlan) : Decidable (Disturbs first second) :=
  inferInstanceAs (Decidable (∃ _ ∈ _, ∃ _ ∈ _, _))

variable {ι : Type} {state next : RaceState ι} {origins : ι → Storage}

/-- The job works on this plan and has not returned. -/
def Runs (state : RaceState ι) (id : ι) (plan : TransferPlan) (pc : TransferPc) : Prop :=
  (∃ done, state.jobs id = .running plan done pc) ∧ ∀ result, pc ≠ .returned result

/-- What is assumed of the backends: the mounted directories are there, and a recursive
listing lists what is there. -/
def Faithful (server : Server) (args : ι → TransferArgs) (state : RaceState ι) : RaceEvent ι → Prop
  | .request id answers =>
    (∀ point ∈ allPoints server.users, server.loaded point = true → nodeAt state.storage (point.id, []) = some .dir) ∧
    ∀ plan, vfsTransfer server state.storage answers (args id) = .ok plan →
      ∀ src, plan.srcIsDir = true → sourceOf plan = some src → Lists state.storage src (withSlash plan.srcPath) plan.entries
  | .job _ _ => True

/-- A request is accepted only when nothing is at its destination and it disturbs no job
that runs, nor is disturbed by one. -/
def Undisturbed (server : Server) (args : ι → TransferArgs) (state : RaceState ι) : RaceEvent ι → Prop
  | .request id answers => ∀ plan, vfsTransfer server state.storage answers (args id) = .ok plan →
      (∀ dst, destinationOf plan = some dst → nodeAt state.storage dst = none) ∧
      ∀ other running pc, Runs state other running pc → ¬Disturbs plan running ∧ ¬Disturbs running plan
  | .job _ _ => True

/-! ### The invariant -/

/-- Every running job is at a stage of its own, apart from the others, and has written all
the files below its destination. -/
structure Sound (origins : ι → Storage) (state : RaceState ι) : Prop where
  active : ∀ id plan pc, Runs state id plan pc → ∃ src dst, Active (origins id) state.storage plan pc src dst
  owned : ∀ id plan pc dst place, Runs state id plan pc → destinationOf plan = some dst → Under dst place →
    isFile (nodeAt state.storage place) = true → state.writers place = some id
  apart : ∀ id other plan running pc at_pc, id ≠ other → Runs state id plan pc → Runs state other running at_pc →
    ¬Disturbs plan running

theorem Sound.initial (storage : Storage) : Sound (fun _ : ι => storage) (raceStart storage : RaceState ι) := by
  have idle {id : ι} {plan : TransferPlan} {pc : TransferPc} (runs : Runs (raceStart storage : RaceState ι) id plan pc) : False := by
    obtain ⟨⟨done, running⟩, -⟩ := runs
    cases running
  exact ⟨fun _ _ _ runs => (idle runs).elim, fun _ _ _ _ _ runs => (idle runs).elim, fun _ _ _ _ _ _ _ runs => (idle runs).elim⟩

/-- A job that does not disturb another one leaves both its ends alone. -/
theorem not_disturbs {plan running : TransferPlan} {src dst used : Place} (quiet : ¬Disturbs plan running)
    (destination : destinationOf plan = some dst) (source : sourceOf plan = some src) (member : used ∈ uses running) :
    ¬Overlap dst used ∧ (plan.copy = false → ¬Overlap src used) := by
  constructor
  · intro overlap
    exact quiet ⟨dst, by simp [changes, destination], used, member, overlap⟩
  · intro move overlap
    exact quiet ⟨src, by simp [changes, move, source], used, member, overlap⟩

variable [DecidableEq ι] {server : Server} {args : ι → TransferArgs}

theorem runs_update {id other : ι} {job : Job} {plan : TransferPlan} {pc : TransferPc} {storage : Storage}
    {writers : Place → Option ι} (runs : Runs ⟨storage, Function.update state.jobs id job, writers⟩ other plan pc) :
    other = id ∧ (∃ done, job = .running plan done pc) ∧ (∀ result, pc ≠ .returned result) ∨
      other ≠ id ∧ Runs state other plan pc := by
  obtain ⟨⟨done, running⟩, unfinished⟩ := runs
  rcases of_update (· = Job.running plan done pc) running with ⟨same, here⟩ | ⟨different, there⟩
  · exact .inl ⟨same, ⟨done, here⟩, unfinished⟩
  · exact .inr ⟨different, ⟨done, there⟩, unfinished⟩

private theorem Sound.rejected {id : ι} {error : Status} (sound : Sound origins state) :
    Sound origins { state with jobs := Function.update state.jobs id (.rejected error) } := by
  have before {other : ι} {plan : TransferPlan} {pc : TransferPc}
      (runs : Runs { state with jobs := Function.update state.jobs id (.rejected error) } other plan pc) :
      Runs state other plan pc := by
    rcases runs_update runs with ⟨-, ⟨done, impossible⟩, -⟩ | ⟨-, same⟩
    · cases impossible
    · exact same
  exact ⟨fun other plan pc runs => sound.active other plan pc (before runs),
    fun other plan pc dst place runs => sound.owned other plan pc dst place (before runs),
    fun one two plan running pc at_pc different first second => sound.apart one two plan running pc at_pc different (before first) (before second)⟩

private theorem Sound.accepted {id : ι} {plan : TransferPlan} {src dst : Place} (sound : Sound origins state)
    (planned : Planned plan state.storage src dst)
    (quiet : ∀ other running pc, Runs state other running pc → ¬Disturbs plan running ∧ ¬Disturbs running plan) :
    Sound (Function.update origins id state.storage)
      { state with jobs := Function.update state.jobs id (.running plan 0 .recheck) } := by
  refine ⟨?_, ?_, ?_⟩
  · intro other other_plan pc runs
    rcases runs_update runs with ⟨rfl, ⟨done, here⟩, -⟩ | ⟨different, before⟩
    · cases here
      rw [Function.update_self]
      exact ⟨src, dst, state.storage, planned, .waiting (.inl rfl), fun _ _ => rfl⟩
    · rw [Function.update_of_ne different]
      exact sound.active other other_plan pc before
  · intro other other_plan pc other_dst place runs located under file
    rcases runs_update runs with ⟨rfl, ⟨done, here⟩, -⟩ | ⟨-, before⟩
    · cases here
      rw [destinationOf, planned.destination] at located
      cases located
      rw [absent_under planned.absent under] at file
      cases file
    · exact sound.owned other other_plan pc other_dst place before located under file
  · intro one two first_plan second_plan pc at_pc different first second
    rcases runs_update first with ⟨rfl, ⟨done, here⟩, -⟩ | ⟨-, one_before⟩
    · cases here
      rcases runs_update second with ⟨same, -, -⟩ | ⟨-, two_before⟩
      · exact absurd same.symm different
      · exact (quiet two second_plan at_pc two_before).1
    · rcases runs_update second with ⟨rfl, ⟨done, here⟩, -⟩ | ⟨-, two_before⟩
      · cases here
        exact (quiet one first_plan pc one_before).2
      · exact sound.apart one two first_plan second_plan pc at_pc different one_before two_before

omit [DecidableEq ι] in
theorem runs_of_step {id : ι} {plan : TransferPlan} {done : Nat} {pc : TransferPc} {result : TransferState} {answer : Answer}
    (running : state.jobs id = .running plan done pc)
    (taken : transferStep plan ⟨state.storage, done, pc⟩ answer = some result) : Runs state id plan pc := by
  refine ⟨⟨done, running⟩, ?_⟩
  rintro error rfl
  cases taken

omit [DecidableEq ι] in
theorem Sound.moves {id : ι} {plan : TransferPlan} {done : Nat} {pc : TransferPc} {result : TransferState} {answer : Answer}
    (sound : Sound origins state) (running : state.jobs id = .running plan done pc)
    (taken : transferStep plan ⟨state.storage, done, pc⟩ answer = some result) :
    ∃ src dst, sourceOf plan = some src ∧ destinationOf plan = some dst ∧
      Active (origins id) result.storage plan result.pc src dst ∧
      Touches (Renames plan ∧ result.pc = .returned none) src dst state.storage result.storage := by
  obtain ⟨src, dst, before, planned, stage, original⟩ := sound.active id plan pc (runs_of_step running taken)
  have turn := transferStep_turn taken
  exact ⟨src, dst, planned.source, planned.destination, ⟨before, planned, stage.turn planned turn, original⟩,
    stage.touches planned turn⟩

private theorem Sound.job_step {id : ι} {plan : TransferPlan} {done : Nat} {pc : TransferPc} {result : TransferState}
    {answer : Answer} (sound : Sound origins state) (running : state.jobs id = .running plan done pc)
    (taken : transferStep plan ⟨state.storage, done, pc⟩ answer = some result) :
    Sound origins ⟨result.storage, Function.update state.jobs id (.running plan result.done result.pc),
      recordWriters state.writers state.storage result.storage id⟩ := by
  have runs := runs_of_step running taken
  obtain ⟨src, dst, source, destination, active, touches⟩ := sound.moves running taken
  have untouched (other : ι) (plan' : TransferPlan) (pc' : TransferPc) (different : other ≠ id) (before : Runs state other plan' pc')
      (used : Place) (member : used ∈ uses plan') (place : Place) (under : Under used place) :
      nodeAt result.storage place = nodeAt state.storage place := by
    have quiet := sound.apart id other plan plan' pc pc' different.symm runs before
    obtain ⟨first, second⟩ := not_disturbs quiet destination source member
    exact touches.elsewhere first (fun moves => second moves.1.move) under
  refine ⟨?_, ?_, ?_⟩
  · intro other plan' pc' moved
    rcases runs_update moved with ⟨rfl, ⟨_, here⟩, -⟩ | ⟨different, before⟩
    · cases here
      exact ⟨src, dst, active⟩
    · obtain ⟨src', dst', active'⟩ := sound.active other plan' pc' before
      have ends := active'
      obtain ⟨_, planned, -, -⟩ := ends
      refine ⟨src', dst', active'.rebase before.2 ?_ ?_⟩
      · exact untouched other plan' pc' different before src' (by simp [uses, sourceOf, planned.source])
      · exact untouched other plan' pc' different before dst' (by simp [uses, destinationOf, planned.destination])
  · intro other plan' pc' dst' place moved located under file
    simp only [recordWriters]
    rcases runs_update moved with ⟨rfl, ⟨_, here⟩, -⟩ | ⟨different, before⟩
    · cases here
      split
      next same =>
        rw [same] at file
        exact sound.owned other _ pc dst' place runs located under file
      next => rfl
    · have same := untouched other plan' pc' different before dst' (by simp [uses, located]) place under
      rw [if_pos same]
      rw [same] at file
      exact sound.owned other plan' pc' dst' place before located under file
  · intro one two first_plan second_plan pc' at_pc different first second
    have before {other : ι} {plan' : TransferPlan} {pc' : TransferPc}
        (moved : Runs ⟨result.storage, Function.update state.jobs id (.running plan result.done result.pc),
          recordWriters state.writers state.storage result.storage id⟩ other plan' pc') : ∃ pc, Runs state other plan' pc := by
      rcases runs_update moved with ⟨rfl, ⟨_, here⟩, -⟩ | ⟨-, same⟩
      · cases here
        exact ⟨pc, runs⟩
      · exact ⟨pc', same⟩
    obtain ⟨_, one_before⟩ := before first
    obtain ⟨_, two_before⟩ := before second
    exact sound.apart one two first_plan second_plan _ _ different one_before two_before

/-- The server's users are those that SetVfs accepted. -/
structure Configured (server : Server) : Prop where
  named : ∀ user ∈ server.users, NamedPoints user
  distinct : ((allPoints server.users).map VfsPoint.id).Nodup

/-- One step keeps every job sound and the storage that a job started from. -/
theorem Sound.step {event : RaceEvent ι} (configured : Configured server) (sound : Sound origins state)
    (faithful : Faithful server args state event) (undisturbed : Undisturbed server args state event)
    (taken : raceStep server args state event = some next) :
    ∃ kept : ι → Storage, Sound kept next ∧ (∀ id, state.jobs id ≠ .waiting → kept id = origins id) ∧
      ∀ id plan done pc, state.jobs id = .waiting → next.jobs id = .running plan done pc → kept id = state.storage := by
  cases event with
  | request id answers =>
    simp only [raceStep] at taken
    split at taken
    next waits =>
      split at taken <;> cases taken
      next plan built =>
        obtain ⟨absent, quiet⟩ := undisturbed plan built
        obtain ⟨src, dst, ends, -⟩ := vfsTransfer_ends built configured.named configured.distinct faithful.1 (faithful.2 plan built)
        refine ⟨_, sound.accepted ⟨ends.toEnds, absent dst ends.destination⟩ quiet, ?_, ?_⟩
        · intro other started
          have different : other ≠ id := by
            rintro rfl
            exact started waits
          exact Function.update_of_ne different ..
        · intro other other_plan done pc waiting starts
          rcases of_update (· = Job.running other_plan done pc) starts with ⟨rfl, -⟩ | ⟨-, before⟩
          · exact Function.update_self ..
          · rw [waiting] at before
            cases before
      next =>
        refine ⟨origins, sound.rejected, fun _ _ => rfl, ?_⟩
        intro other other_plan done pc waiting starts
        rcases of_update (· = Job.running other_plan done pc) starts with ⟨-, impossible⟩ | ⟨-, before⟩
        · cases impossible
        · rw [waiting] at before
          cases before
    next => cases taken
    next => cases taken
  | job id answer =>
    simp only [raceStep] at taken
    split at taken
    next plan done pc running =>
      obtain ⟨result, moved, rfl⟩ := Option.map_eq_some_iff.mp taken
      refine ⟨origins, sound.job_step running moved, fun _ _ => rfl, ?_⟩
      intro other other_plan other_done other_pc waiting starts
      rcases of_update (· = Job.running other_plan other_done other_pc) starts with ⟨rfl, -⟩ | ⟨-, before⟩
      · rw [waiting] at running
        cases running
      · rw [waiting] at before
        cases before
    next => cases taken
    next => cases taken

/-! ### Jobs that fail -/

/-- The step has brought the job to success. -/
def Succeeded (state : RaceState ι) (id : ι) : Prop := ∃ plan done, state.jobs id = .running plan done (.returned none)

/-- A step that is not the success of its job changes no file of another job. -/
theorem Sound.spares_others {id other : ι} {answer : Answer} (sound : Sound origins state)
    (taken : raceStep server args state (.job id answer) = some next) (unsuccessful : ¬Succeeded next id) {place : Place}
    (file : isFile (nodeAt state.storage place) = true) (changed : nodeAt next.storage place ≠ nodeAt state.storage place)
    (written : state.writers place = some other) : other = id := by
  simp only [raceStep] at taken
  split at taken
  next plan done pc running =>
    obtain ⟨result, moved, rfl⟩ := Option.map_eq_some_iff.mp taken
    have unfinished : result.pc ≠ .returned none := by
      intro returned
      exact unsuccessful ⟨plan, result.done, by simp [returned]⟩
    obtain ⟨src, dst, source, destination, -, touches⟩ := sound.moves running moved
    rcases touches place with same | inside | ⟨⟨-, returned⟩, -⟩ | ⟨-, -, free⟩
    · exact absurd same changed
    · have own := sound.owned id plan pc dst place (runs_of_step running moved) destination inside file
      rw [written] at own
      exact Option.some.inj own
    · exact absurd returned unfinished
    · rw [free] at file
      cases file
  next => cases taken
  next => cases taken

/-! ### What a move has brought stays -/

/-- The step accepts no request that moves the place away. -/
def Spares (server : Server) (args : ι → TransferArgs) (place : Place) (state : RaceState ι) : RaceEvent ι → Prop
  | .request id answers => ∀ plan src, vfsTransfer server state.storage answers (args id) = .ok plan → plan.copy = false →
      sourceOf plan = some src → ¬Under src place
  | .job _ _ => True

/-- The node is in place and no running job is going to touch it. -/
structure Settled (place : Place) (node : Node Bytes) (state : RaceState ι) : Prop where
  present : nodeAt state.storage place = some node
  safe : ∀ id plan pc, Runs state id plan pc → (∀ dst, destinationOf plan = some dst → ¬Under dst place) ∧
    (plan.copy = false → ∀ src, sourceOf plan = some src → ¬Under src place)

theorem Settled.step {event : RaceEvent ι} {place : Place} {node : Node Bytes} (settled : Settled place node state)
    (sound : Sound origins state) (undisturbed : Undisturbed server args state event) (spares : Spares server args place state event)
    (taken : raceStep server args state event = some next) : Settled place node next := by
  cases event with
  | request id answers =>
    simp only [raceStep] at taken
    split at taken
    next =>
      split at taken <;> cases taken
      next plan built =>
        refine ⟨settled.present, ?_⟩
        intro other plan' pc runs
        rcases runs_update runs with ⟨rfl, ⟨_, here⟩, -⟩ | ⟨-, before⟩
        · cases here
          refine ⟨?_, fun move src source => spares plan src built move source⟩
          intro dst destination under
          have absent := absent_under ((undisturbed plan built).1 dst destination) under
          rw [settled.present] at absent
          cases absent
        · exact settled.safe other plan' pc before
      next =>
        refine ⟨settled.present, ?_⟩
        intro other plan' pc runs
        rcases runs_update runs with ⟨-, ⟨_, impossible⟩, -⟩ | ⟨-, before⟩
        · cases impossible
        · exact settled.safe other plan' pc before
    next => cases taken
    next => cases taken
  | job id answer =>
    simp only [raceStep] at taken
    split at taken
    next plan done pc running =>
      obtain ⟨result, moved, rfl⟩ := Option.map_eq_some_iff.mp taken
      have own := settled.safe id plan pc (runs_of_step running moved)
      obtain ⟨src, dst, source, destination, -, touches⟩ := sound.moves running moved
      refine ⟨?_, ?_⟩
      · rcases touches place with same | inside | ⟨⟨move, -⟩, inside⟩ | ⟨-, made, free⟩
        · exact same.trans settled.present
        · exact absurd inside (own.1 dst destination)
        · exact absurd inside (own.2 move.move src source)
        · rw [settled.present] at free
          cases node with
          | dir => exact made
          | file content => cases free
      · intro other plan' pc' runs
        rcases runs_update runs with ⟨rfl, ⟨_, here⟩, -⟩ | ⟨-, before⟩
        · cases here
          exact own
        · exact settled.safe other plan' pc' before
    next => cases taken
    next => cases taken

/-- A move that has just succeeded has its source at the destination, safe from every job
that still runs. -/
theorem Sound.settled {id : ι} {answer : Answer} {plan : TransferPlan} {done : Nat} {src dst : Place} {rel : Path}
    {node : Node Bytes} (sound : Sound origins state) (taken : raceStep server args state (.job id answer) = some next)
    (returned : next.jobs id = .running plan done (.returned none)) (source : sourceOf plan = some src)
    (destination : destinationOf plan = some dst) (original : nodeAt (origins id) (below src rel) = some node) :
    Settled (below dst rel) node next := by
  simp only [raceStep] at taken
  split at taken
  next running_plan before pc running =>
    obtain ⟨result, moved, rfl⟩ := Option.map_eq_some_iff.mp taken
    simp only [Function.update_self, Job.running.injEq] at returned
    obtain ⟨rfl, -, finished⟩ := returned
    obtain ⟨src', dst', source', destination', ⟨begun, planned, stage, same⟩, -⟩ := sound.moves running moved
    cases source.symm.trans source'
    cases destination.symm.trans destination'
    refine ⟨?_, ?_⟩
    · rw [finished] at stage
      cases stage with
      | waiting first => simp at first
      | succeeded complete _ _ => rw [complete rel, same _ (under_below src rel), original]
    · intro other plan' pc' runs
      rcases runs_update runs with ⟨rfl, ⟨_, here⟩, unfinished⟩ | ⟨different, before⟩
      · cases here
        exact absurd finished (unfinished none)
      · have quiet := sound.apart other id plan' running_plan pc' pc different before (runs_of_step running moved)
        have used : dst ∈ uses running_plan := by simp [uses, destination]
        have inside := under_below dst rel
        refine ⟨?_, ?_⟩
        · intro dst' located under
          exact quiet ⟨dst', by simp [changes, located], dst, used, under.comparable inside⟩
        · intro move src' located under
          exact quiet ⟨src', by simp [changes, move, located], dst, used, under.comparable inside⟩
  next => cases taken
  next => cases taken

/-! ### Whole runs -/

/-- The request is made at `asked`, its job takes its last step to `returned`, and the run
goes on from there with `later`. -/
def Transfers (server : Server) (args : ι → TransferArgs) (start : RaceState ι) (events : List (RaceEvent ι)) (id : ι)
    (asked returned : RaceState ι) (later : List (RaceEvent ι)) : Prop :=
  ∃ earlier answers during answer last, events = earlier ++ .request id answers :: (during ++ .job id answer :: later) ∧
    run (raceStep server args) start earlier = some asked ∧
    run (raceStep server args) asked (.request id answers :: during) = some last ∧
    raceStep server args last (.job id answer) = some returned

/-- The job of a request was planned on the storage that the request has seen. -/
structure Tracked (asked : RaceState ι) (id : ι) (state : RaceState ι) : Prop where
  started : state.jobs id ≠ .waiting
  sound : ∃ origins, Sound origins state ∧ ∀ plan done pc, state.jobs id = .running plan done pc → origins id = asked.storage

theorem raceStep_jobs {event : RaceEvent ι} {id : ι} (started : state.jobs id ≠ .waiting)
    (taken : raceStep server args state event = some next) :
    next.jobs id ≠ .waiting ∧ ∀ plan done pc, next.jobs id = .running plan done pc →
      ∃ plan done pc, state.jobs id = .running plan done pc := by
  have moves {other : ι} {job : Job} (waits : other = id → ∃ plan done pc, state.jobs id = .running plan done pc)
      (named : job ≠ .waiting) : Function.update state.jobs other job id ≠ .waiting ∧
      ∀ plan done pc, Function.update state.jobs other job id = .running plan done pc →
        ∃ plan done pc, state.jobs id = .running plan done pc := by
    by_cases same : id = other
    · subst other
      rw [Function.update_self]
      exact ⟨named, fun _ _ _ _ => waits rfl⟩
    · rw [Function.update_of_ne same]
      exact ⟨started, fun plan done pc running => ⟨plan, done, pc, running⟩⟩
  cases event with
  | request other answers =>
    simp only [raceStep] at taken
    split at taken
    next waits =>
      have elsewhere (same : other = id) : ∃ plan done pc, state.jobs id = .running plan done pc :=
        absurd (same ▸ waits) started
      split at taken <;> cases taken <;> exact moves elsewhere (by simp)
    next => cases taken
    next => cases taken
  | job other answer =>
    simp only [raceStep] at taken
    split at taken
    next plan done pc running =>
      obtain ⟨result, moved, rfl⟩ := Option.map_eq_some_iff.mp taken
      exact moves (fun same => ⟨plan, done, pc, same ▸ running⟩) (by simp)
    next => cases taken
    next => cases taken

theorem Tracked.step {event : RaceEvent ι} {asked : RaceState ι} {id : ι} (configured : Configured server)
    (tracked : Tracked asked id state) (faithful : Faithful server args state event)
    (undisturbed : Undisturbed server args state event) (taken : raceStep server args state event = some next) :
    Tracked asked id next := by
  obtain ⟨origins, sound, same⟩ := tracked.sound
  obtain ⟨kept, later, unchanged, -⟩ := sound.step configured faithful undisturbed taken
  obtain ⟨started, before⟩ := raceStep_jobs tracked.started taken
  refine ⟨started, kept, later, ?_⟩
  intro plan done pc running
  obtain ⟨_, _, _, earlier⟩ := before plan done pc running
  exact (unchanged id tracked.started).trans (same _ _ _ earlier)

theorem Tracked.first {id : ι} {answers : RequestAnswers} (configured : Configured server) (sound : Sound origins state)
    (faithful : Faithful server args state (.request id answers)) (undisturbed : Undisturbed server args state (.request id answers))
    (taken : raceStep server args state (.request id answers) = some next) : Tracked state id next := by
  obtain ⟨kept, later, -, origin⟩ := sound.step configured faithful undisturbed taken
  simp only [raceStep] at taken
  split at taken
  next waits =>
    refine ⟨?_, kept, later, fun plan done pc running => origin id plan done pc waits running⟩
    split at taken <;> cases taken <;> simp
  next => cases taken
  next => cases taken

def imageArgs : TransferArgs := photoTransfer "points/old/photos/image" "points/new/img" false

def imageRequest : RaceEvent Unit := .request () (photoAnswers [])

def imageJobs : List (RaceEvent Unit) := imageEvents.dropLast.map (.job ())

def imageRace (events : List (RaceEvent Unit)) : Option (RaceState Unit) :=
  run (raceStep photoServer fun _ => imageArgs) (raceStart photoStorage) events

/-- The photos in one point and a file in the other. -/
def bothStorage : Storage := fun id => if id = 1 then photoTree else (emptyTree.putFile [img] [4]).getD emptyTree

/-- The directory without its first slash comes last; the empty directory in it is left out. -/
def photoListing : List Entry :=
  [⟨"/points/old/photos/image".toList, ⟨false, 3⟩⟩, ⟨"points/old/photos/".toList, ⟨true, 0⟩⟩]

theorem photos_listed : Lists bothStorage (1, [photos]) "/points/old/photos/".toList photoListing where
  sound entry member := by
    simp only [photoListing, List.mem_cons, List.not_mem_nil, or_false] at member
    rcases member with rfl | rfl
    · exact .inr ⟨[image], .file [1, 2, 3], by simp, rfl, rfl⟩
    · exact .inl ⟨rfl, [image], by simp, by decide +kernel⟩
  rooted _ := ⟨⟨"points/old/photos/".toList, ⟨true, 0⟩⟩, by simp [photoListing], rfl⟩

/-- A copy of the photos to the other point, and a move of a file below the directory that
the copy makes. -/
def bothTransfers (copy : Bool) : TransferArgs :=
  if copy then photoTransfer "points/old/photos" "points/new/photos" true
  else photoTransfer "points/new/img" "points/new/photos/img" false

def copyPlan : TransferPlan where
  srcOp := photoMounts
  dstOp := photoMounts
  srcPath := "/points/old/photos/".toList
  dstPath := "/points/new/photos/".toList
  srcIsDir := true
  entries := photoListing
  totalBytes := 3
  copy := true
  native := false
  localQuota := some ⟨"/srv/new".toList, "photos".toList, some 100⟩

def movePlan : TransferPlan := { imagePlan with
  srcPath := "/points/new/img".toList
  dstPath := "/points/new/photos/img".toList
  totalBytes := 1
  native := true
  localQuota := none }

def bothEvents : List (RaceEvent Bool) :=
  [.request true (photoAnswers photoListing), .request false (photoAnswers []), .job true {}, .job true {}, .job false {}, .job false {},
    .job true {}, .job true {}, .job true {}, .job true {}, .job true {}, .job true {}]

end Vaulton.Proofs.TransferRace
