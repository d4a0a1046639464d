import Vaulton.Lib.Machine
import Vaulton.LocalQuota

/-! When a local point stays within its quota. Every check counts the other files as they
were at some moment; a write is covered by its check as long as the other files weigh no
more when it happens. -/

namespace Vaulton.Proofs.LocalQuota
open Vaulton.Lib Vaulton.Config Vaulton.LocalQuota
open Vaulton.Transfer (Path u64Max spoolChunk checkLocalQuota)

section Files

variable {ν : Type} [DecidableEq ν] {files next : Files ν} {node : ν} {file : LocalFile} {path : Path} {max : Nat}

/-- What the other files of the point weigh. -/
def othersOf (files : Files ν) (node : ν) : Nat := size files - weightAt LocalFile.len files node

theorem othersOf_add (found : files.lookup node = some file) : othersOf files node + file.len = size files := by
  have weight : weightAt LocalFile.len files node = file.len := by simp [weightAt, found]
  have below := weightAt_le_total LocalFile.len files node
  unfold othersOf size
  omega

theorem size_insert (found : files.lookup node = some file) (changed : LocalFile) :
    size (files.insert node changed) = othersOf files node + changed.len := by
  have weight : weightAt LocalFile.len files node = file.len := by simp [weightAt, found]
  have inserted := total_insert LocalFile.len files node changed
  have split := othersOf_add found
  unfold size at split ⊢
  omega

/-- Only growth beyond what the others leave can exceed the bound. -/
theorem resize_le {len : Nat} (bounded : size files ≤ max)
    (covered : ∀ file, files.lookup node = some file → file.len < len → othersOf files node + len ≤ max) :
    size (resize files node len) ≤ max := by
  unfold resize
  split
  next file found =>
    have split := othersOf_add found
    rw [size_insert found]
    by_cases grows : file.len < len
    · exact covered file found grows
    · dsimp only
      omega
  next => exact bounded

theorem extend_le {offset count : Nat} (bounded : size files ≤ max)
    (covered : ∀ file, files.lookup node = some file → count ≠ 0 → file.len < offset + count →
      othersOf files node + (offset + count) ≤ max) :
    size (extend files node offset count) ≤ max := by
  unfold extend
  split
  next file found =>
    split
    next => exact bounded
    next some_bytes =>
      have split := othersOf_add found
      rw [size_insert found]
      by_cases grows : file.len < offset + count
      · have enough := covered file found some_bytes grows
        dsimp only
        omega
      · dsimp only
        omega
  next => exact bounded

theorem findFile_lookup (found : findFile files path = some (node, file)) : files.lookup node = some file := by
  obtain ⟨entry, first, same⟩ := Option.map_eq_some_iff.mp found
  cases same
  exact AList.mem_lookup_iff.mpr (List.mem_of_find?_eq_some first)

theorem openCreate_size {fresh : ν} (opened : openCreate files path fresh = some (node, next)) :
    size next = size files ∧ ∃ file, next.lookup node = some file ∧ file.len = lenAt files path := by
  unfold openCreate at opened
  split at opened
  next old file found =>
    cases opened
    exact ⟨rfl, file, findFile_lookup found, by simp [lenAt, found]⟩
  next missing =>
    split at opened <;> cases opened
    next absent =>
      refine ⟨?_, _, AList.lookup_insert _, by simp [lenAt, missing]⟩
      have inserted := total_insert LocalFile.len files node ⟨path, 0⟩
      rw [weightAt_of_notMem absent] at inserted
      exact inserted

theorem openTruncate_size {fresh : ν} (opened : openTruncate files path fresh = some (node, next)) :
    size next + lenAt files path = size files ∧ ∃ file, next.lookup node = some file ∧ file.len = 0 := by
  obtain ⟨⟨created, middle⟩, creating, same⟩ := Option.map_eq_some_iff.mp opened
  cases same
  obtain ⟨unchanged, file, found, len⟩ := openCreate_size creating
  have split := othersOf_add found
  refine ⟨?_, { file with len := 0 }, ?_, rfl⟩
  · simp only [resize, found]
    rw [size_insert found]
    dsimp only
    omega
  · simp only [resize, found]
    exact AList.lookup_insert _

theorem deleteUnder_le (root : Path) (spared : Path → Bool) : size (deleteUnder files root spared) ≤ size files :=
  total_restrict_le _ _ _

theorem renameUnder_le (source target : Path) : size (renameUnder files source target) ≤ size files := by
  unfold renameUnder size
  rw [total_mapValues]
  · exact deleteUnder_le target _
  · intro file
    split <;> rfl

end Files

/-- The bytes of the files that a transfer has yet to copy. -/
def bytesOf (rest : List CopiedFile) : Nat := (rest.map CopiedFile.len).sum

theorem totalBytes_eq (job : LocalTransfer) : job.totalBytes = min (bytesOf job.files) u64Max := by
  have general (rest : List CopiedFile) (sum : Nat) (small : sum ≤ u64Max) :
      rest.foldl (fun sum file => min (sum + file.len) u64Max) sum = min (sum + bytesOf rest) u64Max := by
    induction rest generalizing sum with
    | nil => simp [bytesOf, small]
    | cons file rest ih =>
      rw [List.foldl_cons, ih _ (Nat.min_le_right _ _)]
      simp only [bytesOf, List.map_cons, List.sum_cons]
      omega
  simpa [LocalTransfer.totalBytes] using general job.files 0 (Nat.zero_le _)

variable {κ ν : Type} [DecidableEq ν] {state next : QuotaState κ ν} {requests : κ → Request κ} {point : VfsPoint} {max : Nat}

/-- When a step makes a file longer, the other files weigh no more than its check has
counted. For a transfer this leaves out what the job has copied itself. -/
def Uncontested (requests : κ → Request κ) (state : QuotaState κ ν) : κ × Outcome ν → Prop
  | (id, answer) =>
    match requests id, state.pcs id with
    | .writeAt _ _ count, .write handle offset _ => ∀ file, state.files.lookup handle.node = some file → count ≠ 0 →
        file.len < offset + count → othersOf state.files handle.node ≤ handle.quotaBaseBytes
    | .setLength _ length, .setLen handle => ∀ file, state.files.lookup handle.node = some file → file.len < length →
        othersOf state.files handle.node ≤ handle.quotaBaseBytes ∧ handle.quotaBaseBytes + length ≤ u64Max
    | .setLengthAt path length, .setLenAt room => ∀ node file, findFile state.files path = some (node, file) →
        file.len < length → othersOf state.files node + length ≤ room
    | .transfer job, .start => bytesOf job.files ≤ u64Max
    | .transfer job, .copyFiles room copied (file :: _) => job.native = true → ∀ node source,
        findFile state.files file.source = some (node, source) → lenAt state.files file.destination < source.len →
          source.len ≤ file.len ∧ size state.files - lenAt state.files file.destination + job.totalBytes ≤ room + copied
    | .transfer job, .stream room copied written node file _ => ∀ opened, state.files.lookup node = some opened →
        opened.len < written + chunkLen answer written file.len →
          othersOf state.files node + job.totalBytes ≤ room + copied
    | _, _ => True

/-! ### The invariant -/

/-- What the check before this position has established. -/
def Allowed (max : Nat) : Request κ → Pc ν → Prop
  | .writeAt _ _ count, .write handle offset newLen => handle.quotaBaseBytes + newLen ≤ max ∧ offset + count ≤ newLen
  | .setLength _ length, .setLen handle => min (handle.quotaBaseBytes + length) u64Max ≤ max
  | .setLengthAt _ _, .setLenAt room => room ≤ max
  | .transfer job, .measure _ => bytesOf job.files ≤ job.totalBytes
  | .transfer job, .rename room => bytesOf job.files ≤ job.totalBytes ∧ room ≤ max
  | .transfer job, .copyFiles room copied rest => room ≤ max ∧ copied + bytesOf rest ≤ job.totalBytes
  | .transfer job, .stream room copied _ _ file rest => room ≤ max ∧ copied + file.len + bytesOf rest ≤ job.totalBytes
  | _, _ => True

structure Within (max : Nat) (requests : κ → Request κ) (state : QuotaState κ ν) : Prop where
  bounded : size state.files ≤ max
  allowed : ∀ id, Allowed max (requests id) (state.pcs id)

variable [DecidableEq κ] {id : κ} {answer : Outcome ν}

theorem Within.move {pc : Pc ν} (within : Within max requests state) (bounded : size next.files ≤ max)
    (moved : next.pcs = Function.update state.pcs id pc) (allowed : Allowed max (requests id) pc) : Within max requests next := by
  refine ⟨bounded, ?_⟩
  rw [moved]
  exact forall_update (fun other pc => Allowed max (requests other) pc) within.allowed allowed

theorem Within.returns {result : Except Status Unit} (within : Within max requests state) (bounded : size next.files ≤ max)
    (moved : next.pcs = Function.update state.pcs id (.returned result)) : Within max requests next := by
  refine within.move bounded moved ?_
  cases requests id <;> trivial

/-! ### One step -/

private theorem Within.open_step {path : Path} {overwrite append : Bool} (within : Within max requests state)
    (sent : requests id = .openWrite path overwrite append)
    (taken : openStep point state id answer path overwrite append (state.pcs id) = some next) : Within max requests next := by
  have free (pc : Pc ν) : Allowed max (requests id) pc := by
    rw [sent]
    cases pc <;> trivial
  cases at_pc : state.pcs id <;> simp only [at_pc, openStep, reduceCtorEq] at taken
  case start =>
    cases taken
    exact within.move within.bounded rfl (free _)
  case measure existing =>
    split at taken <;> cases taken
    · exact within.returns within.bounded rfl
    · exact within.move within.bounded rfl (free _)
  case openFile base initial =>
    have created {node : ν} {files : Files ν} (opened : openCreate state.files path answer.fresh = some (node, files)) :
        size files ≤ max := (openCreate_size opened).1 ▸ within.bounded
    split at taken
    · split at taken
      next =>
        cases taken
        exact within.returns within.bounded rfl
      next =>
        obtain ⟨⟨node, files⟩, opened, rfl⟩ := Option.map_eq_some_iff.mp taken
        exact within.returns (created opened) rfl
    · obtain ⟨⟨node, files⟩, opened, rfl⟩ := Option.map_eq_some_iff.mp taken
      have created := created opened
      refine within.returns ?_ rfl
      dsimp only
      split
      · exact resize_le created (fun _ _ impossible => absurd impossible (Nat.not_lt_zero _))
      · exact created

theorem checkWrite_ok {base newLen : Nat} (accepted : checkWrite (some max) base newLen = .ok ()) : base + newLen ≤ max := by
  simp only [checkWrite] at accepted
  split at accepted
  · cases accepted
  · split at accepted
    · cases accepted
    · omega

private theorem Within.write_step {handle : κ} {offset count : Nat} (within : Within max requests state)
    (quota : point.maxBytes = some max) (sent : requests id = .writeAt handle offset count)
    (uncontested : Uncontested requests state (id, answer))
    (taken : writeStep point state id answer handle offset count (state.pcs id) = some next) : Within max requests next := by
  have allowed := within.allowed id
  cases at_pc : state.pcs id <;> simp only [at_pc, writeStep, reduceCtorEq] at taken
  case start =>
    split at taken <;> cases taken
    · exact within.returns within.bounded rfl
    · exact within.move within.bounded rfl (by rw [sent]; trivial)
  case check found =>
    generalize (if found.append = true then ((state.files.lookup found.node).map LocalFile.len).getD 0 else offset) =
      writeOffset at taken
    split at taken
    · cases taken
      exact within.returns within.bounded rfl
    · split at taken
      · cases taken
        exact within.returns within.bounded rfl
      · split at taken <;> cases taken
        · exact within.returns within.bounded rfl
        next accepted =>
          rw [quota] at accepted
          refine within.move within.bounded rfl ?_
          rw [sent]
          exact ⟨checkWrite_ok accepted, Nat.le_max_right _ _⟩
  case write found writeOffset newLen =>
    simp only [Uncontested, sent, at_pc] at uncontested
    rw [sent, at_pc] at allowed
    obtain ⟨counted, long⟩ := allowed
    have fits (written : Nat) (part : written ≤ count) : size (extend state.files found.node writeOffset written) ≤ max := by
      apply extend_le within.bounded
      intro file opened some_bytes grows
      have others := uncontested file opened (by omega) (by omega)
      omega
    split at taken <;> cases taken
    · exact within.returns (fits _ (Nat.min_le_right _ _)) rfl
    · exact within.returns (fits _ (Nat.le_refl _)) rfl

theorem checkSetLength_ok {base length : Nat} (accepted : checkSetLength (some max) base length = .ok ()) :
    min (base + length) u64Max ≤ max := by
  simp only [checkSetLength] at accepted
  split at accepted
  · cases accepted
  · omega

private theorem Within.setLength_step {handle : κ} {length : Nat} (within : Within max requests state)
    (quota : point.maxBytes = some max) (sent : requests id = .setLength handle length)
    (uncontested : Uncontested requests state (id, answer))
    (taken : setLengthStep point state id answer handle length (state.pcs id) = some next) : Within max requests next := by
  have allowed := within.allowed id
  cases at_pc : state.pcs id <;> simp only [at_pc, setLengthStep, reduceCtorEq] at taken
  case start =>
    split at taken <;> cases taken
    · exact within.returns within.bounded rfl
    · exact within.move within.bounded rfl (by rw [sent]; trivial)
  case check found =>
    split at taken
    · cases taken
      exact within.returns within.bounded rfl
    · split at taken <;> cases taken
      · exact within.returns within.bounded rfl
      next accepted =>
        rw [quota] at accepted
        refine within.move within.bounded rfl ?_
        rw [sent]
        exact checkSetLength_ok accepted
  case setLen found =>
    simp only [Uncontested, sent, at_pc] at uncontested
    rw [sent, at_pc] at allowed
    simp only [Allowed] at allowed
    split at taken <;> cases taken
    · exact within.returns within.bounded rfl
    · refine within.returns (resize_le within.bounded ?_) rfl
      intro file opened grows
      obtain ⟨others, fits⟩ := uncontested file opened grows
      omega

/-- The check by a walk of the tree; without growth there is none. -/
theorem checkLocalQuota_ok {files : Files ν} {growth : Nat} (bounded : size files ≤ max)
    (accepted : checkLocalQuota (some max) growth (dirSize files) = .ok ()) : size files + growth ≤ max := by
  simp only [checkLocalQuota] at accepted
  split at accepted
  · omega
  · unfold dirSize at accepted
    split at accepted
    · cases accepted
    next used measured =>
      split at measured <;> cases measured
      split at accepted
      · cases accepted
      · split at accepted
        · cases accepted
        · omega

private theorem Within.setLengthAt_step {path : Path} {length : Nat} (within : Within max requests state)
    (quota : point.maxBytes = some max) (sent : requests id = .setLengthAt path length)
    (uncontested : Uncontested requests state (id, answer))
    (taken : setLengthAtStep point state id answer path length (state.pcs id) = some next) : Within max requests next := by
  have allowed := within.allowed id
  cases at_pc : state.pcs id <;> simp only [at_pc, setLengthAtStep, reduceCtorEq] at taken
  case start =>
    split at taken <;> cases taken
    · exact within.move within.bounded rfl (by rw [sent]; trivial)
    · exact within.returns within.bounded rfl
  case measure old =>
    split at taken <;> cases taken
    · exact within.returns within.bounded rfl
    next accepted =>
      rw [quota] at accepted
      refine within.move within.bounded rfl ?_
      rw [sent]
      exact checkLocalQuota_ok within.bounded accepted
  case setLenAt room =>
    simp only [Uncontested, sent, at_pc] at uncontested
    rw [sent, at_pc] at allowed
    simp only [Allowed] at allowed
    split at taken <;> cases taken
    next node file _ found =>
      refine within.returns (resize_le within.bounded ?_) rfl
      intro opened lookup grows
      rw [findFile_lookup found] at lookup
      cases lookup
      exact (uncontested node file found grows).trans allowed
    next => exact within.returns within.bounded rfl

/-! ### Transfers -/

private theorem Within.copy_step {job : LocalTransfer} {room copied : Nat} {rest : List CopiedFile}
    (within : Within max requests state) (sent : requests id = .transfer job) (at_pc : state.pcs id = .copyFiles room copied rest)
    (uncontested : Uncontested requests state (id, answer))
    (taken : copyStep job state id answer room copied rest = some next) : Within max requests next := by
  have allowed := within.allowed id
  rw [sent, at_pc] at allowed
  obtain ⟨fits, planned⟩ := allowed
  cases rest with
  | nil =>
    simp only [copyStep] at taken
    split at taken <;> cases taken
    · exact within.move within.bounded rfl (by rw [sent]; trivial)
    · exact within.returns within.bounded rfl
  | cons file rest =>
    simp only [Uncontested, sent, at_pc] at uncontested
    simp only [bytesOf, List.map_cons, List.sum_cons] at planned
    have finished (bound : room ≤ max ∧ copied + (file.len + (rest.map CopiedFile.len).sum) ≤ job.totalBytes) :
        Allowed max (requests id) (.copyFiles room (copied + file.len) rest : Pc ν) := by
      rw [sent]
      refine ⟨bound.1, ?_⟩
      simp only [bytesOf]
      omega
    simp only [copyStep] at taken
    split at taken
    next native =>
      -- The destination is emptied and gets the source, or its front part when the copy fails.
      have replaces {node created : ν} {source : LocalFile} {emptied : Files ν} {length : Nat}
          (found : findFile state.files file.source = some (node, source))
          (opened : openTruncate state.files file.destination answer.fresh = some (created, emptied)) (short : length ≤ source.len) :
          size (resize emptied created length) ≤ max := by
        obtain ⟨replaced, blank, found_again, empty⟩ := openTruncate_size opened
        have split := othersOf_add found_again
        have bounded := within.bounded
        apply resize_le (by omega)
        intro opened_file lookup _
        rw [found_again] at lookup
        cases lookup
        by_cases grows : lenAt state.files file.destination < source.len
        · obtain ⟨listed, others⟩ := uncontested native node source found grows
          omega
        · omega
      split at taken
      · cases taken
        exact within.move within.bounded rfl (by rw [sent]; trivial)
      · cases taken
        exact within.move within.bounded rfl (by rw [sent]; trivial)
      next written node source found =>
        obtain ⟨⟨created, files⟩, opened, rfl⟩ := Option.map_eq_some_iff.mp taken
        exact within.move (replaces found opened (Nat.min_le_right _ _)) rfl (by rw [sent]; trivial)
      next node source found =>
        obtain ⟨⟨created, files⟩, opened, rfl⟩ := Option.map_eq_some_iff.mp taken
        exact within.move (replaces found opened (Nat.le_refl _)) rfl (finished ⟨fits, planned⟩)
    next =>
      split at taken
      · cases taken
        exact within.move within.bounded rfl (by rw [sent]; trivial)
      · obtain ⟨⟨node, files⟩, opened, rfl⟩ := Option.map_eq_some_iff.mp taken
        obtain ⟨replaced, -⟩ := openTruncate_size opened
        have bounded := within.bounded
        refine within.move (by dsimp only; omega) rfl ?_
        rw [sent]
        refine ⟨fits, ?_⟩
        simp only [bytesOf]
        omega

private theorem Within.transfer_step {job : LocalTransfer} (within : Within max requests state)
    (quota : point.maxBytes = some max) (sent : requests id = .transfer job)
    (uncontested : Uncontested requests state (id, answer))
    (taken : transferStep point job state id answer (state.pcs id) = some next) : Within max requests next := by
  have allowed := within.allowed id
  cases at_pc : state.pcs id <;> simp only [at_pc, transferStep, reduceCtorEq] at taken
  case start =>
    simp only [Uncontested, sent, at_pc] at uncontested
    have planned : bytesOf job.files ≤ job.totalBytes := by
      rw [totalBytes_eq]
      omega
    split at taken <;> cases taken
    · exact within.move within.bounded rfl (by rw [sent]; exact ⟨planned, within.bounded⟩)
    · exact within.move within.bounded rfl (by rw [sent]; exact planned)
  case measure existing =>
    rw [sent, at_pc] at allowed
    split at taken <;> cases taken
    · exact within.returns within.bounded rfl
    next accepted =>
      rw [quota] at accepted
      refine within.move within.bounded rfl ?_
      rw [sent]
      exact ⟨checkLocalQuota_ok within.bounded accepted, by simpa [Allowed] using allowed⟩
  case rename room =>
    rw [sent, at_pc] at allowed
    split at taken
    · cases taken
      refine within.move within.bounded rfl ?_
      rw [sent]
      exact ⟨allowed.2, by simpa using allowed.1⟩
    · split at taken <;> cases taken
      · exact within.returns within.bounded rfl
      · exact within.returns ((renameUnder_le _ _).trans within.bounded) rfl
  case copyFiles room copied rest => exact within.copy_step sent at_pc uncontested taken
  case stream room copied written node file rest =>
    simp only [Uncontested, sent, at_pc] at uncontested
    rw [sent, at_pc] at allowed
    obtain ⟨fits, planned⟩ := allowed
    -- The chunk ends with the file at the latest.
    have short : chunkLen answer written file.len ≤ file.len - written :=
      (Nat.min_le_left _ _).trans (Nat.sub_le_sub_right (Nat.min_le_right _ _) _)
    have grown (count : Nat) (part : count ≤ chunkLen answer written file.len) :
        size (extend state.files node written count) ≤ max := by
      apply extend_le within.bounded
      intro opened lookup _ grows
      have others := uncontested opened lookup (by omega)
      omega
    split at taken
    · cases taken
      refine within.move within.bounded rfl ?_
      rw [sent]
      exact ⟨fits, planned⟩
    next more =>
      split at taken <;> cases taken
      · exact within.move (grown _ (Nat.min_le_right _ _)) rfl (by rw [sent]; trivial)
      · refine within.move (grown _ (Nat.le_refl _)) rfl ?_
        rw [sent]
        exact ⟨fits, planned⟩
  case cleanup =>
    cases taken
    exact within.returns ((deleteUnder_le ..).trans within.bounded) rfl
  case deleteSource =>
    cases taken
    exact within.returns ((deleteUnder_le ..).trans within.bounded) rfl

theorem Within.step {event : κ × Outcome ν} (within : Within max requests state) (quota : point.maxBytes = some max)
    (uncontested : Uncontested requests state event) (taken : quotaStep point requests state event = some next) :
    Within max requests next := by
  obtain ⟨id, answer⟩ := event
  cases sent : requests id <;> simp only [quotaStep, sent] at taken
  case openWrite path overwrite append => exact within.open_step sent taken
  case writeAt handle offset count => exact within.write_step quota sent uncontested taken
  case setLength handle length => exact within.setLength_step quota sent uncontested taken
  case setLengthAt path length => exact within.setLengthAt_step quota sent uncontested taken
  case closeWrite handle =>
    split at taken <;> cases taken
    exact within.returns within.bounded rfl
  case transfer job => exact within.transfer_step quota sent uncontested taken

/-- In a run whose writes are uncontested, the point never exceeds its quota. -/
theorem uncontested_writes_stay_within_quota (point : VfsPoint) (max : Nat) (quota : point.maxBytes = some max)
    (requests : κ → Request κ) (files : Files ν) (fits : size files ≤ max) (events : List (κ × Outcome ν))
    (uncontested : Guarded (quotaStep point requests) (Uncontested requests) (quotaStart files) events)
    (final : QuotaState κ ν) (executed : run (quotaStep point requests) (quotaStart files) events = some final) :
    size final.files ≤ max := by
  have start : Within max requests (quotaStart files : QuotaState κ ν) := by
    refine ⟨fits, ?_⟩
    intro id
    cases requests id <;> trivial
  have last : Within max requests final := by
    apply guarded_invariant _ start uncontested executed
    exact fun _ _ _ holds allowed taken => holds.step quota allowed taken
  exact last.bounded

def tenBytePoint : VfsPoint where
  id := 1
  name := "docs".toList
  maxBytes := some 10
  readOnly := false
  scheme := "fs".toList
  config := [("root".toList, "/srv/docs".toList)]
  isRepo := false
  repoPassword := none

def draft : Path := [⟨"draft".toList, by decide⟩]

def notes : Path := [⟨"notes".toList, by decide⟩]

/-- The second handle is opened when the first file has its bytes; both stay open. -/
def sharedWrites (id : Fin 5) : Request (Fin 5) :=
  match id with
  | 0 => .openWrite draft false false
  | 1 => .writeAt 0 0 4
  | 2 => .openWrite notes false false
  | 3 => .writeAt 2 0 6
  | 4 => .writeAt 0 1 3

def inTurn : List (Fin 5 × Outcome (Fin 5)) :=
  (List.replicate 3 (0, { fresh := 0 }) ++ List.replicate 3 (1, { fresh := 0 })) ++
    (List.replicate 3 (2, { fresh := 2 }) ++ List.replicate 3 (3, { fresh := 2 })) ++ List.replicate 3 (4, { fresh := 0 })

theorem two_handles_fill_the_point : ∃ final : QuotaState (Fin 5) (Fin 5),
    run (quotaStep tenBytePoint sharedWrites) (quotaStart ∅) inTurn = some final ∧ size final.files ≤ 10 ∧ size final.files = 10 := by
  refine ⟨_, rfl, ?_, rfl⟩
  apply uncontested_writes_stay_within_quota tenBytePoint 10 rfl sharedWrites ∅ (by decide) inTurn
  · refine guarded_cons trivial rfl (guarded_cons trivial rfl (guarded_cons trivial rfl
      (guarded_cons trivial rfl (guarded_cons trivial rfl (guarded_cons ?first rfl
      (guarded_cons trivial rfl (guarded_cons trivial rfl (guarded_cons trivial rfl
      (guarded_cons trivial rfl (guarded_cons trivial rfl (guarded_cons ?second rfl
      (guarded_cons trivial rfl (guarded_cons trivial rfl (guarded_cons ?third rfl trivial))))))))))))))
    case first =>
      intro file found _ _
      decide
    case second =>
      intro file found _ _
      decide
    case third =>
      -- The last write stays within the file.
      intro file found _ grows
      cases found
      exact absurd grows (by decide)
  · rfl

/-- Each of two handles writes as much as the quota allows. -/
def fullWrites (id : Fin 4) : Request (Fin 4) :=
  match id with
  | 0 => .openWrite draft false false
  | 1 => .openWrite notes false false
  | 2 => .writeAt 0 0 10
  | 3 => .writeAt 1 0 10

def threeSteps (id : Fin 4) : List (Fin 4 × Outcome (Fin 4)) := List.replicate 3 (id, { fresh := id })

/-- Both handles were opened when the point was empty, so both writes are accepted. -/
theorem two_handles_exceed_the_quota : ∃ final : QuotaState (Fin 4) (Fin 4),
    run (quotaStep tenBytePoint fullWrites) (quotaStart ∅)
      (threeSteps 0 ++ threeSteps 1 ++ threeSteps 2 ++ threeSteps 3) = some final ∧
    tenBytePoint.maxBytes = some 10 ∧ size final.files = 20 :=
  ⟨_, rfl, rfl, rfl⟩

end Vaulton.Proofs.LocalQuota
