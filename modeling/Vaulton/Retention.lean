import Vaulton.Quota

/-! Repository retention (`ipc/src/retention.rs`): the time rules and the FIFO space
rule over a repository of snapshots and the blobs they refer to. `Retention::run` is
cut at every access to the repository, the usage counter, the clock or the
cancellation token; what these answer is part of the event. -/

namespace Vaulton.Retention
open Vaulton.Quota

/-! ### Policy -/

structure RetentionPolicy where
  keepLast : Nat := 0
  keepHourly : Nat := 0
  keepDaily : Nat := 0
  keepWeekly : Nat := 0
  keepMonthly : Nat := 0
  keepYearly : Nat := 0
  keepWithinDays : Nat := 0
  reserveBytes : Nat := 0
  reservePercent : Nat := 0
  deriving DecidableEq, Repr

def maxSpaceRounds : Nat := 64

def maxReserveDivisor : Nat := 2

def hasTimeRules (policy : RetentionPolicy) : Bool :=
  policy.keepLast > 0 || policy.keepHourly > 0 || policy.keepDaily > 0 || policy.keepWeekly > 0 ||
    policy.keepMonthly > 0 || policy.keepYearly > 0 || policy.keepWithinDays > 0

def hasSpaceRule (policy : RetentionPolicy) : Bool := policy.reserveBytes > 0 || policy.reservePercent > 0

def hasRules (policy : RetentionPolicy) : Bool := hasTimeRules policy || hasSpaceRule policy

def RetentionPolicy.counts (policy : RetentionPolicy) : List Nat :=
  [policy.keepLast, policy.keepHourly, policy.keepDaily, policy.keepWeekly, policy.keepMonthly, policy.keepYearly]

def i32Max : Nat := 2 ^ 31 - 1

/-- Policies that cannot be applied are rejected. -/
def validate (policy : RetentionPolicy) : Except String Unit :=
  if hasRules policy = false then .error "the retention policy has no rules"
  else if policy.reservePercent > 50 then .error "reserve_percent must be at most 50"
  else if policy.keepWithinDays > 36500 then .error "keep_within_days must be at most 36500"
  else if policy.counts.any fun count => count > i32Max then .error "keep counts are too large"
  else .ok ()

/-- The policy that an ApplyRetention job hands to `Retention::run`. -/
def applyRetentionPolicy (policy : Option RetentionPolicy) : Except String RetentionPolicy :=
  match policy with
  | none => .error "a retention policy is required"
  | some policy =>
    match validate policy with
    | .error message => .error message
    | .ok () => .ok policy

/-- How many bytes of the quota the space rule wants to keep free. -/
def targetFree (maxBytes : Nat) (policy : RetentionPolicy) : Nat :=
  let byPercent := maxBytes * policy.reservePercent / 100 % 2 ^ 64
  min (max policy.reserveBytes byPercent) (maxBytes / maxReserveDivisor)

/-- The counts handed to rustic's `KeepOptions`, as `i32`, and the days of `keep_within`. -/
structure KeepOptions where
  last : Option Int
  hourly : Option Int
  daily : Option Int
  weekly : Option Int
  monthly : Option Int
  yearly : Option Int
  withinDays : Option Nat
  deriving DecidableEq, Repr

def asI32 (count : Nat) : Int := (BitVec.ofNat 32 count).toInt

def keepCount (count : Nat) : Option Int := if count > 0 then some (asI32 count) else none

/-- The largest number of days a jiff `Span` can hold. -/
def maxSpanDays : Nat := 7304484

/-- How a fallible operation of a retention run ends. -/
inductive Outcome (α : Type) where
  | ok (value : α)
  | err (message : String)
  deriving DecidableEq, Repr

def buildKeep (policy : RetentionPolicy) : Outcome (Option KeepOptions) :=
  if hasTimeRules policy then
    if policy.keepWithinDays > maxSpanDays then .err "invalid keep_within_days"
    else .ok (some {
      last := keepCount policy.keepLast
      hourly := keepCount policy.keepHourly
      daily := keepCount policy.keepDaily
      weekly := keepCount policy.keepWeekly
      monthly := keepCount policy.keepMonthly
      yearly := keepCount policy.keepYearly
      withinDays := if policy.keepWithinDays > 0 then some policy.keepWithinDays else none })
  else .ok none

/-! ### Repository -/

inductive DeleteOption where
  | notSet
  | never
  | after (time : Int)
  deriving DecidableEq, Repr

/-- The fields of a snapshot file that retention reads, and the blobs its tree refers to. -/
structure Snapshot where
  id : Nat
  time : Int
  hostname : String
  label : String
  paths : List String
  delete : DeleteOption
  /-- `summary.data_added_packed`. -/
  dataAddedPacked : Option Nat
  blobs : List Nat
  deriving DecidableEq, Repr

/-- The grouping criterion: hostname, label and paths. -/
def Snapshot.group (snapshot : Snapshot) : String × String × List String :=
  (snapshot.hostname, snapshot.label, snapshot.paths)

def isLocked (snapshot : Snapshot) : Bool := snapshot.delete == .never

def addedBytes (snapshot : Snapshot) : Nat := snapshot.dataAddedPacked.getD 0

/-- A snapshot file is stored under its id, so no two have the same one. -/
structure Repository where
  snapshots : List Snapshot
  blobs : List Nat
  distinct : (snapshots.map Snapshot.id).Nodup

/-- `delete_snapshots`. -/
def Repository.deleteSnapshots (repo : Repository) (ids : List Nat) : Repository where
  snapshots := repo.snapshots.filter fun snapshot => !ids.contains snapshot.id
  blobs := repo.blobs
  distinct := (repo.distinct.sublist (List.filter_sublist.map _))

def Repository.removeBlobs (repo : Repository) (gone : List Nat) : Repository :=
  { repo with blobs := repo.blobs.filter fun blob => !gone.contains blob }

def Repository.addBlob (repo : Repository) (blob : Nat) : Repository :=
  if blob ∈ repo.blobs then repo else { repo with blobs := repo.blobs ++ [blob] }

/-- Saving a snapshot that is already there changes nothing: its id is its hash. -/
def Repository.saveSnapshot (repo : Repository) (snapshot : Snapshot) : Repository :=
  if present : snapshot.id ∈ repo.snapshots.map Snapshot.id then repo
  else { repo with
    snapshots := repo.snapshots ++ [snapshot]
    distinct := by
      rw [List.map_append, List.nodup_append]
      refine ⟨repo.distinct, by simp, ?_⟩
      rintro id member other single rfl
      simp only [List.map_cons, List.map_nil, List.mem_singleton] at single
      exact present (single ▸ member) }

/-- Blobs that no snapshot refers to. -/
def Repository.unreferenced (repo : Repository) : List Nat :=
  repo.blobs.filter fun blob => repo.snapshots.all fun snapshot => !snapshot.blobs.contains blob

def Separate (left right : List Snapshot) : Prop :=
  ∀ first ∈ left, ∀ second ∈ right, first.group ≠ second.group

/-- `Grouped::from_items`: a partition by the criterion, in some order. -/
structure IsPartition (all : List Snapshot) (groups : List (List Snapshot)) : Prop where
  covers : groups.flatten.Perm all
  nonempty : ∀ group ∈ groups, group ≠ []
  uniform : ∀ group ∈ groups, ∀ first ∈ group, ∀ second ∈ group, first.group = second.group
  separate : groups.Pairwise Separate

/-- What retention takes from rustic: the delete protection of a snapshot, the grouping
and the decision of the time rules for a snapshot of a group. -/
structure Rustic where
  mustKeep : Snapshot → Int → Bool
  keeps_locked : ∀ snapshot now, isLocked snapshot = true → mustKeep snapshot now = true
  fromItems : List Snapshot → List (List Snapshot)
  partitions : ∀ all, IsPartition all (fromItems all)
  keeps : KeepOptions → Int → List Snapshot → Snapshot → Bool

/-- The stable `sort_by` on the time. -/
def sortByTime (snapshots : List Snapshot) : List Snapshot :=
  snapshots.insertionSort fun first second => first.time ≤ second.time

/-- Snapshots the space rule may delete, oldest first: everything unlocked except the
newest snapshot of each group. -/
def fifoCandidates (rustic : Rustic) (all : List Snapshot) (now : Int) : List Snapshot :=
  sortByTime ((rustic.fromItems all).flatMap fun group =>
    (sortByTime group).dropLast.filter fun snapshot => !rustic.mustKeep snapshot now)

/-- Snapshots the time rules do not keep, oldest first. -/
def timeDoomed (rustic : Rustic) (keep : KeepOptions) (all : List Snapshot) (now : Int) : List Snapshot :=
  sortByTime ((rustic.fromItems all).flatMap fun group =>
    group.filter fun snapshot => !rustic.keeps keep now group snapshot && !rustic.mustKeep snapshot now)

/-- Oldest first until the estimate covers the deficit and the batch is large enough. -/
def takeBatch (deficit minBatch : Nat) (estimate : Nat) (batch : List Snapshot) : List Snapshot → List Snapshot
  | [] => batch
  | snapshot :: rest =>
    let estimate := saturatingAdd estimate (addedBytes snapshot)
    let batch := batch ++ [snapshot]
    if estimate ≥ deficit ∧ batch.length ≥ minBatch then batch else takeBatch deficit minBatch estimate batch rest

/-! ### One run -/

inductive Phase where
  | spaceOnly
  | full
  deriving DecidableEq, Repr

structure Report where
  timeDeleted : Nat := 0
  spaceDeleted : Nat := 0
  bytesFreed : Nat := 0
  deriving DecidableEq, Repr

/-- What one `Retention::run` is given. -/
structure RetentionRun where
  policy : RetentionPolicy
  phase : Phase
  maxBytes : Option Nat
  dryRun : Bool
  deriving DecidableEq, Repr

def RetentionRun.space (run : RetentionRun) : Bool := hasSpaceRule run.policy && run.maxBytes.isSome

/-- The loop variables of `space_step`. -/
structure Round where
  round : Nat
  minBatch : Nat
  emptyRounds : Nat
  deriving DecidableEq, Repr

/-- A round that found too little space: the usage it read and what is missing. -/
structure Shortage where
  round : Round
  used : Nat
  deficit : Nat
  deriving DecidableEq, Repr

/-- Where a run goes on after a prune. -/
inductive Resume where
  | time (before : Nat)
  | space (shortage : Shortage) (deleted : Nat)
  deriving DecidableEq, Repr

inductive PrunePc where
  | check
  | open
  | plan
  | execute (doomed : List Nat)
  deriving DecidableEq, Repr

inductive RetentionPc where
  | begin
  | timeCheck (keep : KeepOptions)
  | timeOpen (keep : KeepOptions)
  | timeList (keep : KeepOptions)
  | timeUsage (now : Int) (doomed : List Snapshot)
  | timeDelete (now : Int) (doomed : List Snapshot) (before : Nat)
  | timeFreed (before : Nat)
  | prune (pc : PrunePc) (instant : Bool) (resume : Resume)
  | roundCheck (round : Round)
  | roundUsage (round : Round)
  | roundOpen (shortage : Shortage)
  | roundList (shortage : Shortage)
  | roundDelete (shortage : Shortage) (now : Int) (batch : List Snapshot)
  | roundFreed (shortage : Shortage) (deleted : Nat)
  | finished (result : Outcome Unit)
  deriving DecidableEq, Repr

/-- What the environment answers in one step: the token, whether a repository operation
fails, the tracked usage, the clock, and the ids or blobs that an incomplete operation
removed. -/
structure Answer where
  cancelled : Bool
  fails : Bool
  usage : Option Nat
  now : Int
  partly : List Nat
  deriving DecidableEq, Repr

structure RetentionState where
  repo : Repository
  report : Report
  pc : RetentionPc

def backendError : Outcome Unit := .err "backend error"

def usageError : Outcome Unit := .err "could not read repository usage"

/-- `space_step` before its loop. -/
def RetentionRun.spaceStep (run : RetentionRun) : RetentionPc :=
  match run.maxBytes with
  | some maxBytes =>
    if run.space = true ∧ targetFree maxBytes run.policy ≠ 0 then .roundCheck ⟨0, 1, 0⟩ else .finished (.ok ())
  | none => .finished (.ok ())

def Resume.pc : Resume → RetentionPc
  | .time before => .timeFreed before
  | .space shortage deleted => .roundFreed shortage deleted

/-- `Retention::prune` on a fresh handle. An instant prune removes every blob that was
unreferenced when the plan was made; otherwise packs are only marked, and those marked
long enough ago are removed. -/
def pruneStep (repo : Repository) (answer : Answer) (instant : Bool) (resume : Resume) :
    PrunePc → Repository × RetentionPc
  | .check => if answer.cancelled then (repo, resume.pc) else (repo, .prune .open instant resume)
  | .open => if answer.fails then (repo, .finished backendError) else (repo, .prune .plan instant resume)
  | .plan =>
    if answer.fails then (repo, .finished backendError)
    else (repo, .prune (.execute repo.unreferenced) instant resume)
  | .execute doomed =>
    if answer.fails then (repo.removeBlobs (doomed.filter answer.partly.contains), .finished backendError)
    else if instant then (repo.removeBlobs doomed, resume.pc)
    else (repo.removeBlobs (doomed.filter answer.partly.contains), resume.pc)

/-- `delete_snapshots` of the listed ids; a failing call may have removed some of them. -/
def deleteListed (repo : Repository) (answer : Answer) (listed : List Snapshot) : Repository :=
  if answer.fails then repo.deleteSnapshots ((listed.map Snapshot.id).filter answer.partly.contains)
  else repo.deleteSnapshots (listed.map Snapshot.id)

/-- The end of a round of `space_step`: count the empty rounds and double the batch. -/
def nextRound (shortage : Shortage) (freed deleted : Nat) : RetentionPc :=
  let emptyRounds := if freed = 0 then shortage.round.emptyRounds + 1 else 0
  let minBatch := if freed < shortage.deficit then max (saturatingAdd shortage.round.minBatch shortage.round.minBatch) deleted
    else shortage.round.minBatch
  if freed = 0 ∧ emptyRounds ≥ 2 then .finished (.ok ())
  else if shortage.round.round + 1 < maxSpaceRounds then .roundCheck ⟨shortage.round.round + 1, minBatch, emptyRounds⟩
  else .finished (.ok ())

def Report.freed (report : Report) (bytes : Nat) : Report :=
  { report with bytesFreed := (report.bytesFreed + bytes) % 2 ^ 64 }

def retentionStep (rustic : Rustic) (run : RetentionRun) (state : RetentionState) (answer : Answer) : Option RetentionState :=
  let repo := state.repo
  let report := state.report
  match state.pc with
  | .begin =>
    match run.phase with
    | .spaceOnly => some ⟨repo, report, run.spaceStep⟩
    | .full =>
      match buildKeep run.policy with
      | .err message => some ⟨repo, report, .finished (.err message)⟩
      | .ok none => some ⟨repo, report, run.spaceStep⟩
      | .ok (some keep) => some ⟨repo, report, .timeCheck keep⟩
  | .timeCheck keep =>
    if answer.cancelled then some ⟨repo, report, run.spaceStep⟩ else some ⟨repo, report, .timeOpen keep⟩
  | .timeOpen keep =>
    if answer.fails then some ⟨repo, report, .finished backendError⟩ else some ⟨repo, report, .timeList keep⟩
  | .timeList keep =>
    if answer.fails then some ⟨repo, report, .finished backendError⟩
    else
      let doomed := timeDoomed rustic keep repo.snapshots answer.now
      if doomed = [] then some ⟨repo, report, run.spaceStep⟩
      else if run.dryRun then
        some ⟨repo, { report with timeDeleted := report.timeDeleted + doomed.length }, run.spaceStep⟩
      else some ⟨repo, report, .timeUsage answer.now doomed⟩
  | .timeUsage now doomed => some ⟨repo, report, .timeDelete now doomed (answer.usage.getD 0)⟩
  | .timeDelete _ doomed before =>
    let deleted := deleteListed repo answer doomed
    if answer.fails then some ⟨deleted, report, .finished backendError⟩
    else some ⟨deleted, { report with timeDeleted := report.timeDeleted + doomed.length },
      .prune .check run.space (.time before)⟩
  | .timeFreed before =>
    some ⟨repo, report.freed (saturatingSub before (answer.usage.getD before)), run.spaceStep⟩
  | .prune pc instant resume =>
    let (pruned, next) := pruneStep repo answer instant resume pc
    some ⟨pruned, report, next⟩
  | .roundCheck round =>
    if answer.cancelled then some ⟨repo, report, .finished (.ok ())⟩ else some ⟨repo, report, .roundUsage round⟩
  | .roundUsage round =>
    match answer.usage, run.maxBytes with
    | some used, some maxBytes =>
      let free := saturatingSub maxBytes used
      let target := targetFree maxBytes run.policy
      if free ≥ target then some ⟨repo, report, .finished (.ok ())⟩
      else some ⟨repo, report, .roundOpen ⟨round, used, target - free⟩⟩
    | _, _ => some ⟨repo, report, .finished usageError⟩
  | .roundOpen shortage =>
    if answer.fails then some ⟨repo, report, .finished backendError⟩ else some ⟨repo, report, .roundList shortage⟩
  | .roundList shortage =>
    if answer.fails then some ⟨repo, report, .finished backendError⟩
    else
      let candidates := fifoCandidates rustic repo.snapshots answer.now
      if candidates = [] then some ⟨repo, report, .finished (.ok ())⟩
      else
        let batch := takeBatch shortage.deficit shortage.round.minBatch 0 [] candidates
        if run.dryRun then
          some ⟨repo, { report with spaceDeleted := report.spaceDeleted + batch.length }, .finished (.ok ())⟩
        else some ⟨repo, report, .roundDelete shortage answer.now batch⟩
  | .roundDelete shortage _ batch =>
    let deleted := deleteListed repo answer batch
    if answer.fails then some ⟨deleted, report, .finished backendError⟩
    else some ⟨deleted, { report with spaceDeleted := report.spaceDeleted + batch.length },
      .prune .check true (.space shortage batch.length)⟩
  | .roundFreed shortage deleted =>
    match answer.usage with
    | none => some ⟨repo, report, .finished usageError⟩
    | some after =>
      let freed := saturatingSub shortage.used after
      some ⟨repo, report.freed freed, nextRound shortage freed deleted⟩
  | .finished _ => none

def retentionStart (repo : Repository) : RetentionState := ⟨repo, {}, .begin⟩

end Vaulton.Retention
